import Mathlib.Algebra.GroupWithZero.Nat
import Mathlib.Data.List.Basic
import BoundSql.Writer
import BoundSql.Proofs.Text.Reader

/-! What writers add to a query. Most add the same text to every query; where values are added too,
their placeholders are numbered by the values before them, and nothing else in the query counts. -/

namespace BoundSql

/-- A writer adds a text and no value. -/
def Writer.Adds (w : Writer) (d : Dialect) (cs : List Char) : Prop :=
  ∀ q, w d q = q.write (String.ofList cs)

namespace Writer

variable {d : Dialect} {a b : Writer} {s t : List Char}

theorem adds_nothing : nothing.Adds d [] := fun q => by simp [Query.write]

theorem adds_text (s : String) : (text s).Adds d s.toList := fun q => by simp

theorem adds_dialectText (f : Dialect → String) : (dialectText f).Adds d (f d).toList := fun q => by
  rw [String.ofList_toList]
  rfl

theorem adds_name (s : String) : (name s).Adds d (d.quoted s).toList :=
  adds_dialectText fun d => d.quoted s

theorem Adds.append (ha : a.Adds d s) (hb : b.Adds d t) : (a ++ b).Adds d (s ++ t) := by
  intro q
  rw [append_apply, ha, hb, String.ofList_append]
  simp [Query.write, String.append_assoc]

variable {ι : Type} {w : ι → Writer} {f : ι → List Char}

theorem adds_commaSeparated (h : ∀ i, (w i).Adds d (f i)) (is : List ι) :
    (commaSeparated (is.map w)).Adds d (commas (is.map f)) := by
  induction is with
  | nil => exact adds_nothing
  | cons i is ih =>
    cases is with
    | nil =>
      show (w i).Adds d (commas [f i])
      rw [commas, List.intercalate_singleton]
      exact h i
    | cons j is =>
      show (w i ++ text ", " ++ commaSeparated ((j :: is).map w)).Adds d
        (commas (f i :: f j :: is.map f))
      rw [commas, List.intercalate_cons_cons]
      exact ((h i).append (adds_text ", ")).append ih

theorem adds_clause (h : ∀ i, (w i).Adds d (f i)) (keyword : String) (is : List ι) :
    (clause keyword (is.map w)).Adds d (clauseText keyword (is.map f)) := by
  cases is with
  | nil => exact adds_nothing
  | cons i is => exact (adds_text keyword).append (adds_commaSeparated h (i :: is))

theorem adds_optional (h : ∀ i, (w i).Adds d (f i)) (keyword : String) (o : Option ι) :
    (optional keyword (o.map w)).Adds d (optionText keyword (o.map f)) := by
  cases o with
  | none => exact adds_nothing
  | some i => exact (adds_text keyword).append (h i)

end Writer

/-- A text with a space before it, or nothing if there is no text. -/
def behindSpace : List Char → List Char
  | [] => []
  | c :: cs => ' ' :: c :: cs

theorem ofList_behindSpace (cs : List Char) : String.ofList (behindSpace cs) =
    if String.ofList cs = "" then "" else " " ++ String.ofList cs := by
  cases cs with
  | nil => rw [if_pos String.ofList_nil]; rfl
  | cons c cs =>
    have hne : String.ofList (c :: cs) ≠ "" := fun he => by simpa using congrArg String.toList he
    rw [if_neg hne]
    exact @String.ofList_append [' '] (c :: cs)

namespace Writer

variable {d : Dialect}

/-- A writer adds values, and a text that depends on the number of values before it. -/
def Fills (w : Writer) (d : Dialect) (text : ℕ → List Char) (values : List Value) : Prop :=
  ∀ q, w d q = ⟨q.sql ++ String.ofList (text q.binds.length), q.binds ++ values⟩

variable {a b : Writer} {s t : ℕ → List Char} {u v : List Value}

theorem Adds.fills {cs : List Char} (h : a.Adds d cs) : a.Fills d (fun _ => cs) [] := fun q => by
  rw [h, List.append_nil]
  rfl

theorem fills_bind (x : Value) : (bind x).Fills d (fun n => (d.placeholder (n + 1)).toList) [x] :=
  fun q => by rw [bind_apply, Query.bind, String.ofList_toList]

theorem Fills.append (ha : a.Fills d s u) (hb : b.Fills d t v) :
    (a ++ b).Fills d (fun n => s n ++ t (n + u.length)) (u ++ v) := fun q => by
  rw [append_apply, ha, hb, String.ofList_append, List.length_append, List.append_assoc,
    String.append_assoc]

theorem Adds.append_fills {cs : List Char} (ha : a.Adds d cs) (hb : b.Fills d t v) :
    (a ++ b).Fills d (fun n => cs ++ t n) v := ha.fills.append hb

theorem Fills.append_adds {cs : List Char} (ha : a.Fills d s u) (hb : b.Adds d cs) :
    (a ++ b).Fills d (fun n => s n ++ cs) u := fun q => by
  rw [ha.append hb.fills, List.append_nil]

theorem Fills.onlyIf (h : a.Fills d s u) (p : Dialect → Bool) :
    (onlyIf p a).Fills d (fun n => if p d then s n else []) (if p d then u else []) := fun q => by
  by_cases hp : p d = true
  · simp only [Writer.onlyIf, if_pos hp, h q]
  · simp only [Writer.onlyIf, if_neg hp]
    exact adds_nothing.fills (d := d) q

/-- Whether the space before a piece stays depends on the text of the piece alone. -/
theorem Fills.spaced (h : a.Fills d s u) :
    (spaced a).Fills d (fun n => behindSpace (s n)) u := fun q => by
  have hw := h (q.write " ")
  rw [Query.sql_write, Query.binds_write, String.append_assoc] at hw
  rw [spaced_eq (congrArg Query.sql hw), hw, ofList_behindSpace]

variable {ι : Type} {w : ι → Writer} {f : ι → ℕ → List Char} {g : ι → List Value}

/-- The texts of items one after another, each behind the values of those before it. -/
def placed (f : ι → ℕ → List Char) (g : ι → List Value) (n : ℕ) (is : List ι) : List (List Char) :=
  is.mapIdx fun k i => f i (n + ((is.take k).flatMap g).length)

theorem placed_cons (n : ℕ) (i : ι) (is : List ι) :
    placed f g n (i :: is) = f i n :: placed f g (n + (g i).length) is := by
  simp [placed, List.mapIdx_cons, Nat.add_assoc]

/-- Items of one value each are numbered one after another. -/
theorem placed_of_single (v : ι → Value) (n : ℕ) (is : List ι) :
    placed f (fun i => [v i]) n is = is.mapIdx fun k i => f i (n + k) := by
  induction is generalizing n with
  | nil => rfl
  | cons i is ih =>
    rw [placed_cons, ih, List.mapIdx_cons]
    simp [Nat.add_assoc, Nat.add_comm 1]

theorem fills_commaSeparated (h : ∀ i, (w i).Fills d (f i) (g i)) (is : List ι) :
    (commaSeparated (is.map w)).Fills d (fun n => commas (placed f g n is)) (is.flatMap g) := by
  induction is with
  | nil => exact adds_nothing.fills
  | cons i is ih =>
    cases is with
    | nil =>
      intro q
      show w i d q = _
      rw [h i]
      simp [placed, commas]
    | cons j is =>
      have hrest := ((h i).append_adds (adds_text ", ")).append ih
      intro q
      refine (hrest q).trans ?_
      simp only [placed_cons, Reader.commas_cons, List.flatMap_cons, List.append_assoc]

theorem fills_clause (h : ∀ i, (w i).Fills d (f i) (g i)) (keyword : String) (is : List ι) :
    (clause keyword (is.map w)).Fills d (fun n => clauseText keyword (placed f g n is))
      (is.flatMap g) := by
  cases is with
  | nil => exact adds_nothing.fills
  | cons i is =>
    have := (adds_text keyword).append_fills (fills_commaSeparated h (i :: is))
    simp only [placed_cons] at this ⊢
    exact this

theorem fills_optional (h : ∀ i, (w i).Fills d (f i) (g i)) (keyword : String) (o : Option ι) :
    (optional keyword (o.map w)).Fills d (fun n => optionText keyword (o.map (f · n)))
      ((o.map g).getD []) := by
  cases o with
  | none => exact adds_nothing.fills
  | some i => exact (adds_text keyword).append_fills (h i)

/-- What a writer fills into a new query. -/
theorem Fills.query (h : a.Fills d s u) : a d {} = ⟨String.ofList (s 0), u⟩ := by
  rw [h, List.nil_append, String.empty_append]
  rfl

end Writer

end BoundSql
