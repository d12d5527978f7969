import BoundSql.Proofs.Outline
import BoundSql.Proofs.Piece
import BoundSql.Proofs.Text.Quoted

/-! Names and strings are read back from their tokens, whatever quote characters they hold and
whatever stands behind them, and a column is known by its text. -/

namespace BoundSql

/-- The text of a column, perhaps of a named table. -/
def columnText (quoted : String → String) : Option String → String → List Char
  | none, n => nameText quoted n
  | some t, n => (quoted t).toList ++ '.' :: nameText quoted n

theorem Expr.adds_column {ν : Type} [Writable ν] (d : Dialect) (t : Option String) (n : String) :
    (column t n : Expr ν).writer.Adds d (columnText d.quoted t n) := by
  cases t with
  | none => exact adds_columnWriter n
  | some t =>
    have h := ((Writer.adds_name t).append (Writer.adds_text ".")).append (adds_columnWriter (d := d) n)
    rw [List.append_assoc] at h
    exact h

variable {quote : Char} {n n' : String}

theorem token_ne_star (s : String) : (Quoted.token quote s).toList ≠ ['*'] := by
  intro h
  have hread := Quoted.read_token_nil quote s
  rw [h, Quoted.read_singleton] at hread
  cases hread

theorem nameText_injective (quote : Char) : Function.Injective (nameText (Quoted.token quote)) := by
  intro n n' h
  unfold nameText at h
  split_ifs at h with hn hn' hn'
  · rw [hn, hn']
  · exact absurd h.symm (token_ne_star n')
  · exact absurd h (token_ne_star n)
  · exact Quoted.token_injective quote (String.toList_injective h)

/-- A column without a table ends where the token of its name ends. -/
theorem nameText_ne_qualified (hq : '.' ≠ quote) (t : String) (cs : List Char) :
    nameText (Quoted.token quote) n ≠ (Quoted.token quote t).toList ++ '.' :: cs := by
  intro h
  have hread := Quoted.read_token_cons hq t cs
  rw [← h] at hread
  unfold nameText at hread
  split_ifs at hread
  · rw [Quoted.read_singleton] at hread
    cases hread
  · rw [Quoted.read_token_nil] at hread
    cases hread

theorem columnText_injective (hq : '.' ≠ quote) {t t' : Option String}
    (h : columnText (Quoted.token quote) t n = columnText (Quoted.token quote) t' n') :
    t = t' ∧ n = n' := by
  cases t with
  | none =>
    cases t' with
    | none => exact ⟨rfl, nameText_injective quote h⟩
    | some t' => exact absurd h (nameText_ne_qualified hq t' _)
  | some t =>
    cases t' with
    | none => exact absurd h.symm (nameText_ne_qualified hq t _)
    | some t' =>
      have hread := Quoted.read_token_cons hq t (nameText (Quoted.token quote) n)
      have hcolumns : (Quoted.token quote t).toList ++ '.' :: nameText (Quoted.token quote) n =
        (Quoted.token quote t').toList ++ '.' :: nameText (Quoted.token quote) n' := h
      rw [hcolumns, Quoted.read_token_cons hq] at hread
      obtain ⟨rfl, hrest⟩ := Prod.mk.inj (Option.some.inj hread)
      exact ⟨rfl, nameText_injective quote (List.cons.inj hrest).2.symm⟩

theorem Dialect.quote_of_shipped {d : Dialect} (h : d ∈ Dialect.shipped) :
    d.quote = '\"' ∨ d.quote = '\x60' := by
  simp only [shipped, List.mem_cons, List.not_mem_nil, or_false] at h
  rcases h with rfl | rfl | rfl | rfl <;> decide

/-- A token is read exactly as it was written: reading finds a name, or the content of a string, in
front of a rest that does not go on with the quote. So columns with different tables or names have
different texts in every dialect whose quote is no point. -/
theorem tokens_are_read_back {ν : Type} [Writable ν] (d : Dialect) (hd : d.Doubling) :
    (∀ name cs r, Quoted.read d.quote cs = some (name, r) ↔
      cs = (d.quoted name).toList ++ r ∧ r.head? ≠ some d.quote) ∧
    (∀ s (q : Query), ∃ t, (Expr.literal (.string s) : Expr ν).writer d q = q.write t ∧
      ∀ cs r, Quoted.read '\'' cs = some (s, r) ↔ cs = t.toList ++ r ∧ r.head? ≠ some '\'') ∧
    (∀ q : Query, (Function.Injective fun c : Option String × String =>
      ((Expr.column c.1 c.2 : Expr ν).writer d q).sql) ↔ d.quote ≠ '.') ∧
    ∀ d ∈ Dialect.shipped, d.Doubling ∧ (d.quote = '\"' ∨ d.quote = '\x60') := by
  refine ⟨fun name cs r => ?_, fun s q => ⟨_, rfl, fun cs r => Quoted.read_eq_some_iff⟩,
    fun q => ?_, fun d h => ⟨Dialect.doubling_of_shipped h, Dialect.quote_of_shipped h⟩⟩
  · rw [hd]
    exact Quoted.read_eq_some_iff
  have hsql (t : Option String) (n : String) : ((Expr.column t n : Expr ν).writer d q).sql =
      q.sql ++ String.ofList (columnText (Quoted.token d.quote) t n) := by
    rw [Expr.adds_column, hd]
    rfl
  constructor
  · intro hinjective hquote
    -- a point that ends the table cannot be told from one that starts the name
    have htext : String.ofList (columnText (Quoted.token '.') (some "") ".") =
        String.ofList (columnText (Quoted.token '.') (some ".") "") := by decide +kernel
    have hcolumns := @hinjective (some "", ".") (some ".", "") (by
      show ((Expr.column _ _ : Expr ν).writer d q).sql = ((Expr.column _ _ : Expr ν).writer d q).sql
      rw [hsql, hsql, hquote, htext])
    exact absurd (congrArg Prod.snd hcolumns) (by decide)
  · rintro hquote ⟨t, n⟩ ⟨t', n'⟩ h
    have htext := (String.append_right_inj q.sql).1 (((hsql t n).symm.trans h).trans (hsql t' n'))
    obtain ⟨rfl, rfl⟩ := columnText_injective hquote.symm (String.ofList_injective htext)
    rfl

/-- Quotes at both ends of a name, and a name that holds what stands between table and column. -/
theorem tokens_of_quotes_are_read_back :
    Dialect.mysql.Doubling ∧
    Quoted.read '\x60' "\x60\x60\x60a\x60\x60\x60.\x60b\x60".toList =
      some ("\x60a\x60", ".\x60b\x60".toList) ∧
    Quoted.read '\'' "'''--', 'x'".toList = some ("'--", ", 'x'".toList) ∧
    Dialect.mysql ∈ Dialect.shipped ∧
    ((Expr.column (some "a") "b" : Expr Empty).writer .mysql {}).sql ≠
      ((Expr.column none "a\x60.\x60b" : Expr Empty).writer .mysql {}).sql := by
  have hd : Dialect.mysql.Doubling := rfl
  obtain ⟨names, strings, columns, quotes⟩ := @tokens_are_read_back Empty _ .mysql hd
  obtain ⟨t, ht, hread⟩ := strings "'--" {}
  have hshipped : Dialect.mysql ∈ Dialect.shipped := by simp [Dialect.shipped]
  have hquote : Dialect.mysql.quote ≠ '.' := by
    obtain h | h := (quotes .mysql hshipped).2 <;> rw [h] <;> decide
  refine ⟨hd, (names _ _ _).2 (by decide +kernel), (hread _ _).2 ?_, hshipped, fun h => ?_⟩
  · have ht : "'''--'" = t := (String.append_right_inj "").1 (congrArg Query.sql ht)
    rw [← ht]
    decide +kernel
  · cases ((columns {}).2 hquote h : (some "a", "b") = (none, "a\x60.\x60b"))

end BoundSql
