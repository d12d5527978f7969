import Mathlib.Data.List.Sort
import Mathlib.Data.String.Basic
import BoundSql.Row

/-! Rows in interchange form. A key has the value of the first column of its name, and keys stand in
ascending order, so that an object is determined by what its keys find. -/

namespace BoundSql

namespace JsonObject

variable {key : String} {j : Json} {o : JsonObject}

/-- Keys in ascending order, each once. -/
def Sorted (o : JsonObject) : Prop := o.Pairwise fun a b => a.1 < b.1

instance : Std.Irrefl fun a b : String × Json => a.1 < b.1 := ⟨fun a => lt_irrefl a.1⟩

instance : Std.Antisymm fun a b : String × Json => a.1 < b.1 :=
  ⟨fun _ _ h h' => absurd h' (lt_asymm h)⟩

theorem find?_cons (k key : String) (j : Json) (o : JsonObject) :
    find? k ((key, j) :: o) = if k = key then some j else find? k o := by
  by_cases h : k = key
  · rw [if_pos h, find?, List.lookup_cons, beq_iff_eq.2 h]
  · rw [if_neg h, find?, List.lookup_cons, beq_eq_false_iff_ne.2 h]
    rfl

theorem find?_insert (key : String) (j : Json) (o : JsonObject) (k : String) :
    (insert key j o).find? k = if k = key then some j else o.find? k := by
  induction o with
  | nil => exact find?_cons k key j []
  | cons e rest ih =>
    rw [insert]
    by_cases hlt : key < e.1
    · rw [if_pos hlt, find?_cons]
    · rw [if_neg hlt]
      by_cases heq : key = e.1
      · rw [if_pos heq, find?_cons, find?_cons, heq]
        split_ifs <;> rfl
      · rw [if_neg heq, find?_cons, find?_cons, ih]
        by_cases hk : k = key
        · rw [if_pos hk, if_pos hk, if_neg (hk ▸ heq)]
        · rw [if_neg hk, if_neg hk]

theorem forall_key_insert {p : String → Prop} (hkey : p key) (h : ∀ e ∈ o, p e.1) :
    ∀ e ∈ insert key j o, p e.1 := by
  induction o with
  | nil => simpa [insert] using hkey
  | cons e rest ih =>
    rw [List.forall_mem_cons] at h
    rw [insert]
    split_ifs
    · simp only [List.forall_mem_cons]
      exact ⟨hkey, h⟩
    · exact List.forall_mem_cons.2 ⟨hkey, h.2⟩
    · exact List.forall_mem_cons.2 ⟨h.1, ih h.2⟩

theorem Sorted.insert (h : o.Sorted) : (insert key j o).Sorted := by
  induction o with
  | nil => exact List.pairwise_singleton _ _
  | cons e rest ih =>
    obtain ⟨hfirst, hrest⟩ := List.pairwise_cons.1 h
    rw [JsonObject.insert]
    split_ifs with hlt heq
    · refine List.pairwise_cons.2 ⟨?_, h⟩
      exact List.forall_mem_cons.2 ⟨hlt, fun b hb => hlt.trans (hfirst b hb)⟩
    · subst heq
      exact List.pairwise_cons.2 ⟨hfirst, hrest⟩
    · have hgt : e.1 < key := lt_of_le_of_ne (not_lt.1 hlt) (Ne.symm heq)
      exact List.pairwise_cons.2 ⟨forall_key_insert hgt hfirst, ih hrest⟩

theorem Sorted.mem_iff (h : o.Sorted) : (key, j) ∈ o ↔ o.find? key = some j := by
  induction o with
  | nil => simp [find?]
  | cons e rest ih =>
    obtain ⟨hfirst, hrest⟩ := List.pairwise_cons.1 h
    rw [find?_cons, List.mem_cons, ih hrest]
    by_cases hk : key = e.1
    · have habsent : ¬find? key rest = some j := fun hfind =>
        (hfirst _ ((ih hrest).2 hfind)).ne hk.symm
      rw [if_pos hk, or_iff_left habsent, Option.some_inj, Prod.ext_iff, and_iff_right hk]
      exact eq_comm
    · rw [if_neg hk, or_iff_right fun he => hk (congrArg Prod.fst he)]

end JsonObject

namespace Row

variable (r : Row)

theorem value?_eq_none_iff (column : String) : r.value? column = none ↔ column ∉ r.columns := by
  rw [value?, List.lookup_eq_none_iff, columns, List.mem_map, not_exists]
  simp only [bne_iff_ne, ne_eq, not_and]
  exact forall₂_congr fun _ _ => ⟨fun h h' => h h'.symm, fun h h' => h h'.symm⟩

theorem mem_columns_iff (column : String) :
    column ∈ r.columns ↔ (r.value? column).isSome = true := by
  rw [← not_iff_not, ← value?_eq_none_iff, Option.not_isSome_iff_eq_none]

theorem find?_json (key : String) : r.json.find? key = (r.value? key).map Value.json := by
  have run (cs : List String) (o : JsonObject) : (cs.foldl (fun o c =>
      JsonObject.insert c (((r.value? c).map Value.json).getD .null) o) o).find? key =
      if key ∈ cs then some (((r.value? key).map Value.json).getD .null) else o.find? key := by
    induction cs generalizing o with
    | nil => simp
    | cons c cs ih =>
      rw [List.foldl_cons, ih, JsonObject.find?_insert]
      by_cases hk : key ∈ cs
      · simp [hk]
      · by_cases hc : key = c <;> simp [hk, hc]
  rw [json, run]
  cases hv : r.value? key with
  | none => rw [if_neg ((r.value?_eq_none_iff key).1 hv)]; rfl
  | some v =>
    have hk : key ∈ r.columns := (r.mem_columns_iff key).2 (by rw [hv]; rfl)
    rw [if_pos hk]
    rfl

theorem sorted_json : r.json.Sorted := by
  have run (cs : List String) (o : JsonObject) (h : o.Sorted) : (cs.foldl (fun o c =>
      JsonObject.insert c (((r.value? c).map Value.json).getD .null) o) o).Sorted := by
    induction cs generalizing o with
    | nil => exact h
    | cons c cs ih => exact ih _ h.insert
  exact run r.columns [] .nil

end Row

end BoundSql
