import BoundSql.Query

/-! Writers add pieces to a query, and a longer writer is put together from shorter ones. They are
the vocabulary in which the grammar of statements is written down. -/

namespace BoundSql

/-- What is added to a query when a piece is written in some dialect. -/
def Writer : Type := Dialect → Query → Query

namespace Writer

/-- Writes nothing. -/
def nothing : Writer := fun _ q => q

/-- Writes one piece and then another. -/
def append (a b : Writer) : Writer := fun d q => b d (a d q)

instance : Append Writer := ⟨append⟩

/-- Writes a text as it stands. -/
def text (s : String) : Writer := fun _ q => q.write s

/-- Writes a text that depends on the dialect. -/
def dialectText (f : Dialect → String) : Writer := fun d q => q.write (f d)

/-- Writes a quoted name. -/
def name (s : String) : Writer := dialectText fun d => d.quoted s

/-- Records a value and writes its placeholder. -/
def bind (v : Value) : Writer := fun d q => q.bind d v

/-- Writes a piece only where a condition on the dialect holds. -/
def onlyIf (p : Dialect → Bool) (w : Writer) : Writer := fun d q => if p d then w d q else q

/-- Writes a space and a piece; the space is taken back if the piece has no text. -/
def spaced (w : Writer) : Writer := fun d q =>
  let r := w d (q.write " ")
  if r.sql.utf8ByteSize = q.sql.utf8ByteSize + 1 then r.cut q.sql.utf8ByteSize else r

/-- Writes pieces with a separator between each two. -/
def joined (separator : Writer) : List Writer → Writer
  | [] => nothing
  | [w] => w
  | w :: ws => w ++ separator ++ joined separator ws

/-- Writes pieces with commas between them. -/
def commaSeparated (ws : List Writer) : Writer := joined (text ", ") ws

/-- Writes a piece between parentheses. -/
def parenthesized (w : Writer) : Writer := text "(" ++ w ++ text ")"

/-- Writes a clause with its keyword, if there is one. -/
def optional (keyword : String) : Option Writer → Writer
  | none => nothing
  | some w => text keyword ++ w

/-- Writes a clause with its keyword, unless it has no items. -/
def clause (keyword : String) : List Writer → Writer
  | [] => nothing
  | w :: ws => text keyword ++ commaSeparated (w :: ws)

/-- Writes the columns of the written rows to give back, where the dialect can. -/
def returning (ws : List Writer) : Writer := onlyIf Dialect.returning (clause " RETURNING " ws)

@[simp] theorem append_apply (a b : Writer) (d : Dialect) (q : Query) :
    (a ++ b) d q = b d (a d q) := rfl

@[simp] theorem nothing_apply (d : Dialect) (q : Query) : nothing d q = q := rfl

@[simp] theorem text_apply (s : String) (d : Dialect) (q : Query) : text s d q = q.write s := rfl

@[simp] theorem name_apply (s : String) (d : Dialect) (q : Query) :
    name s d q = q.write (d.quoted s) := rfl

@[simp] theorem bind_apply (v : Value) (d : Dialect) (q : Query) : bind v d q = q.bind d v := rfl

theorem append_assoc (a b c : Writer) : a ++ b ++ c = a ++ (b ++ c) := rfl

@[simp] theorem nothing_append (w : Writer) : nothing ++ w = w := rfl

@[simp] theorem append_nothing (w : Writer) : w ++ nothing = w := rfl

@[simp] theorem joined_nil (separator : Writer) : joined separator [] = nothing := rfl

@[simp] theorem joined_singleton (separator w : Writer) : joined separator [w] = w := rfl

theorem joined_cons_cons (separator w v : Writer) (ws : List Writer) :
    joined separator (w :: v :: ws) = w ++ separator ++ joined separator (v :: ws) := rfl

/-- A separator stands between two lists that are not empty. -/
theorem joined_append (separator : Writer) {ws vs : List Writer} (hw : ws ≠ []) (hv : vs ≠ []) :
    joined separator (ws ++ vs) = joined separator ws ++ separator ++ joined separator vs := by
  induction ws with
  | nil => exact absurd rfl hw
  | cons w ws ih =>
    cases ws with
    | nil =>
      cases vs with
      | nil => exact absurd rfl hv
      | cons v vs => rfl
    | cons u ws =>
      have h := ih (by simp)
      simp only [List.cons_append, joined_cons_cons] at h ⊢
      rw [h]; rfl

/-- The space before a piece stays exactly if the piece has a text. -/
theorem spaced_eq {d : Dialect} {w : Writer} {q : Query} {t : String}
    (h : (w d (q.write " ")).sql = q.sql ++ (" " ++ t)) :
    spaced w d q =
      ⟨q.sql ++ if t = "" then "" else " " ++ t, (w d (q.write " ")).binds⟩ := by
  have hsize : (w d (q.write " ")).sql.utf8ByteSize = q.sql.utf8ByteSize + 1 ↔ t = "" := by
    have hspace : " ".utf8ByteSize = 1 := rfl
    rw [h, ← String.utf8ByteSize_eq_zero_iff, String.utf8ByteSize_append,
      String.utf8ByteSize_append, hspace]
    omega
  by_cases ht : t = ""
  · rw [spaced, if_pos (hsize.2 ht), if_pos ht, Query.cut_of_append h, String.append_empty]
  · rw [spaced, if_neg (mt hsize.1 ht), if_neg ht, ← h]

/-- The space before a piece without text is taken back. -/
theorem spaced_of_silent {d : Dialect} {w : Writer} (h : ∀ q, w d q = q) (q : Query) :
    spaced w d q = q := by
  have hsql : (w d (q.write " ")).sql = q.sql ++ (" " ++ "") := by rw [h]; rfl
  rw [spaced_eq hsql, h, if_pos rfl, String.append_empty]
  rfl

end Writer

/-- A type whose terms can be written into a query. -/
class Writable (α : Type) where
  writer : α → Writer

instance : Writable Empty := ⟨nofun⟩

/-- Writes one thing into a new query. -/
def Query.of {α : Type} [Writable α] (d : Dialect) (a : α) : Query := Writable.writer a d {}

end BoundSql
