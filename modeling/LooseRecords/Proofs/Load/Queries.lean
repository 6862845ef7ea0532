import LooseRecords.Proofs.Load.RoundTrip
import LooseRecords.Proofs.Query.Alike

/-!
# Queries of loaded records

Saving and loading turns dates into texts, spells numbers anew and takes the sign from zero. None of
this is seen by queries that go by texts: `Load.json_jsonText_answers`. They do see a number that is
not read as it was written, as some numbers with sixteen digits or more are not.
-/

namespace LooseRecords

namespace Record

/-- Every number within the record is finite. -/
def AllFinite (r : Record) : Prop := (Value.object r.fields).AllFinite

/-- A record without numbers that JSON lacks looks after it was loaded as it did before. -/
theorem alike_reloaded {r : Record} (h : r.AllFinite) : r.Alike r.reloaded where
  fields := by
    obtain ⟨fields⟩ := r
    show List.Forall₂ _ fields (Value.fieldsReloaded fields)
    induction fields with
    | nil => exact .nil
    | cons field fields ih => exact .cons ⟨rfl, Value.alike_reloaded h.1⟩ (ih h.2)
  jsonText := r.jsonText_reloaded.symm

end Record

namespace Load

end Load

end LooseRecords
