import BoundSql.Json.Text
import BoundSql.Proofs.Value.Listing

/-! The text of a row is one line: whatever a name or a value holds, it brings no end of a line into
the text. -/

namespace BoundSql

/-- Text without the end of a line. -/
def Unbroken (cs : List Char) : Prop := ∀ c ∈ cs, c ≠ '\n' ∧ c ≠ '\r'

section Unbroken

variable {s t : List Char}

theorem Unbroken.append (hs : Unbroken s) (ht : Unbroken t) : Unbroken (s ++ t) := fun c hc =>
  (List.mem_append.1 hc).elim (hs c) (ht c)

theorem Printable.unbroken (h : Printable s) : Unbroken s := fun _ hc =>
  ⟨fun he => h.on_one_line.1 (he ▸ hc), fun he => h.on_one_line.2 (he ▸ hc)⟩

theorem unbroken_of_ascii (h : s.all (fun c => 32 ≤ c.toNat && c.toNat ≤ 126) = true) : Unbroken s :=
  (printable_of_ascii h).unbroken

theorem unbroken_intercalate {separator : String} {items : List String}
    (hs : Unbroken separator.toList) (h : ∀ item ∈ items, Unbroken item.toList) :
    Unbroken (separator.intercalate items).toList := by
  rw [String.toList_intercalate]
  induction items with
  | nil => nofun
  | cons item items ih =>
    obtain ⟨hitem, hitems⟩ := List.forall_mem_cons.1 h
    cases items with
    | nil => simpa using hitem
    | cons next items =>
      rw [List.map_cons, List.map_cons, List.intercalate_cons_cons]
      exact (hitem.append hs).append (ih hitems)

end Unbroken

namespace Json

theorem unbroken_char (c : Char) : Unbroken (char c) := by
  have hdigit : ∀ n < 16, Nat.digitChar n ≠ '\n' ∧ Nat.digitChar n ≠ '\r' := by decide
  unfold char
  split_ifs with hquote hbackslash hb hf hn hr ht hlow
  iterate 7 exact unbroken_of_ascii (by decide)
  · have hc : c.toNat < 32 := hlow
    have hname : Unbroken ['\\', 'u', '0', '0'] := unbroken_of_ascii (by decide)
    refine hname.append fun d hd => ?_
    obtain rfl | hd := List.mem_cons.1 hd
    · exact hdigit _ (by omega)
    · rw [List.mem_singleton.1 hd]
      exact hdigit _ (Nat.mod_lt _ (by decide))
  · intro d hd
    rw [List.mem_singleton.1 hd]
    exact ⟨hn, hr⟩

theorem unbroken_token (s : String) : Unbroken (token s).toList := by
  have hquote : Unbroken ['\"'] := unbroken_of_ascii (by decide)
  rw [token, String.toList_ofList]
  refine hquote.append (Unbroken.append (fun c hc => ?_) hquote)
  obtain ⟨d, -, hc⟩ := List.mem_flatMap.1 hc
  exact unbroken_char d c hc

theorem unbroken_text (j : Json) : Unbroken j.text.toList := by
  cases j with
  | null => exact unbroken_of_ascii (by decide)
  | boolean b => cases b <;> exact unbroken_of_ascii (by decide)
  | integer n => exact (printable_toString_int n.toInt).unbroken
  | number x => exact (Layout.printable_text _ x).unbroken
  | string s => exact unbroken_token s
  | array bytes =>
    have hopen : Unbroken "[".toList := unbroken_of_ascii (by decide)
    have hclose : Unbroken "]".toList := unbroken_of_ascii (by decide)
    have hitems : Unbroken (",".intercalate (bytes.map fun b => toString b.toNat)).toList := by
      refine unbroken_intercalate (unbroken_of_ascii (by decide)) fun item hitem => ?_
      obtain ⟨b, -, rfl⟩ := List.mem_map.1 hitem
      exact (printable_toString_int b.toNat).unbroken
    simp only [text, String.toList_append]
    exact (hopen.append hitems).append hclose

end Json

theorem JsonObject.unbroken_text (o : JsonObject) : Unbroken o.text.toList := by
  have hopen : Unbroken "\x7b".toList := unbroken_of_ascii (by decide)
  have hclose : Unbroken "\x7d".toList := unbroken_of_ascii (by decide)
  have hcolon : Unbroken ":".toList := unbroken_of_ascii (by decide)
  simp only [text, String.toList_append]
  refine (hopen.append (unbroken_intercalate (unbroken_of_ascii (by decide)) ?_)).append hclose
  intro item hitem
  obtain ⟨⟨key, v⟩, -, rfl⟩ := List.mem_map.1 hitem
  simp only [String.toList_append]
  exact ((Json.unbroken_token key).append hcolon).append v.unbroken_text

end BoundSql
