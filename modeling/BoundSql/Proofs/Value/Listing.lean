import BoundSql.Proofs.Number.Integer
import BoundSql.Proofs.Text.Escaped
import BoundSql.Value.Listing

/-! A listing is printable, and of values that are no floats it says exactly which values they are: the
first letters tell the shape of a value, and what stands in parentheses or brackets is delimited. -/

namespace BoundSql

variable {ι : Type} {s : Set ι} {follow : List Char → Prop}

/-! Words, digits and lists. -/

theorem isUnprintable_of_isDigit {c : Char} (h : c.isDigit = true) : isUnprintable c = false := by
  have hlow : '0'.toNat ≤ c.toNat := (Char.isDigit_iff_toNat.1 h).1
  have hhigh : c.toNat ≤ '9'.toNat := (Char.isDigit_iff_toNat.1 h).2
  exact isUnprintable_of_ascii (le_trans (by decide) hlow) (hhigh.trans (by decide))

theorem toList_listed (items : List String) :
    (listed items).toList = bracketed (items.map String.toList) := by
  rw [listed, String.toList_append, String.toList_append, String.toList_intercalate]
  rfl

theorem printable_listed {items : List String} (h : ∀ item ∈ items, Printable item.toList) :
    Printable (listed items).toList := by
  have hclose : Printable [']'] := printable_of_ascii (by decide)
  have hopen : Printable ['['] := printable_of_ascii (by decide)
  have hcomma : Printable ", ".toList := printable_of_ascii (by decide)
  rw [toList_listed]
  refine hopen.append (Printable.append ?_ hclose)
  cases items with
  | nil => nofun
  | cons item items =>
    obtain ⟨hitem, hitems⟩ := List.forall_mem_cons.1 h
    rw [List.map_cons, Reader.commas_cons, List.flatMap_map]
    exact hitem.append (printable_flatMap fun i hi => hcomma.append (hitems i hi))

theorem Delimited.parenthesized {content : ι → String}
    (h : Delimited s follow fun i => (content i).toList) (hclose : ∀ r, follow (')' :: r))
    (word : String) : Delimited s Anything fun i => (word ++ content i ++ ")").toList := by
  have htext : (fun i => (word ++ content i ++ ")").toList) =
      fun i => word.toList ++ ((content i).toList ++ [')']) := by
    funext i
    rw [String.toList_append, String.toList_append, List.append_assoc]
    rfl
  rw [htext]
  exact (h.closed [')'] hclose).behind word.toList

/-- Lists of texts that start with no closing bracket. -/
theorem Delimited.listed {content : ι → String}
    (h : Delimited s follow fun i => (content i).toList) (hcomma : ∀ r, follow (',' :: r))
    (hclose : ∀ r, follow (']' :: r))
    (hne : ∀ i ∈ s, ∀ r, ((content i).toList ++ r).head? ≠ some ']') :
    Delimited {is | ∀ i ∈ is, i ∈ s} Anything
      fun is : List ι => (BoundSql.listed (is.map content)).toList := by
  have htext : (fun is : List ι => (BoundSql.listed (is.map content)).toList) =
      fun is => BoundSql.bracketed (is.map fun i => (content i).toList) := by
    funext is
    rw [toList_listed, List.map_map]
    rfl
  rw [htext]
  exact h.bracketed hcomma hclose hne

/-! Numbers. -/

theorem toList_toString_nat (n : Nat) : (toString n).toList = Nat.toDigits 10 n := by
  rw [Nat.toString_eq_ofList_toDigits, String.toList_ofList]

/-- A number ends where its digits end. -/
theorem delimited_toString_nat : Delimited Set.univ (fun r => ∀ c ∈ r.head?, c.isDigit = false)
    fun n : Nat => (toString n).toList := by
  refine .of_all (fun n _ m _ h => ?_) fun n _ c hc => ?_
  · simp only [toList_toString_nat] at h
    rw [← Nat.ofDigitChars_ten_toDigits (n := n), h, Nat.ofDigitChars_ten_toDigits]
  · rw [toList_toString_nat] at hc
    exact Reader.isDigit_of_mem_toDigits c hc

/-- Whether a character belongs to the text of an integer. -/
def isSignOrDigit (c : Char) : Bool := c.isDigit || c == '+' || c == '-'

theorem isSignOrDigit_of_mem {cs : List Char} {n : Int} (h : IsInteger cs n) :
    ∀ c ∈ cs, isSignOrDigit c = true := by
  obtain ⟨sign, digits, rfl, hdigits, -⟩ := h
  intro c hc
  obtain hc | hc := List.mem_append.1 hc
  · have hsign : ∀ sign : Sign, sign.text.all isSignOrDigit = true := by rintro (_ | _ | _) <;> rfl
    exact List.all_eq_true.1 (hsign sign) c hc
  · simp [isSignOrDigit, hdigits.2 c hc]

theorem isUnprintable_of_isSignOrDigit {c : Char} (h : isSignOrDigit c = true) :
    isUnprintable c = false := by
  simp only [isSignOrDigit, Bool.or_eq_true, beq_iff_eq] at h
  obtain (h | rfl) | rfl := h
  · exact isUnprintable_of_isDigit h
  · exact isUnprintable_of_ascii (by decide) (by decide)
  · exact isUnprintable_of_ascii (by decide) (by decide)

theorem toString_toInt_injective : Function.Injective fun n : Int64 => toString n.toInt := by
  intro n m h
  have hn := readInt64_eq_ok_iff.2 (isInteger_toString n.toInt)
  have hm := readInt64_eq_ok_iff.2 (isInteger_toString m.toInt)
  rw [show toString n.toInt = toString m.toInt from h, hm] at hn
  exact (Except.ok.inj hn).symm

/-! Printable listings. -/

theorem printable_digits (d : Scientific) : Printable d.digits := by
  intro c hc
  have hmem := (List.dropWhile_suffix _).mem (List.mem_reverse.1 hc)
  exact isUnprintable_of_isDigit (Reader.isDigit_of_mem_toDigits c (List.mem_reverse.1 hmem))

theorem printable_toString_int (n : Int) : Printable (toString n).toList := fun c hc =>
  isUnprintable_of_isSignOrDigit (isSignOrDigit_of_mem (isInteger_toString n) c hc)

namespace Layout

variable {digits : List Char}

theorem printable_positional (h : Printable digits) (leading : Int) :
    Printable (positional digits leading) := by
  have hzeros (n : Nat) : Printable (List.replicate n '0') := fun c hc =>
    (List.mem_replicate.1 hc).2 ▸ isUnprintable_of_isDigit rfl
  have hpoint : Printable ['.'] := printable_of_ascii (by decide)
  unfold positional
  split
  · exact (hzeros 1).append (hpoint.append ((hzeros _).append h))
  · dsimp only
    rw [← List.singleton_append (x := '.')]
    refine ((h.subset (List.take_subset _ _)).append (hzeros _)).append (hpoint.append ?_)
    split
    · exact hzeros 1
    · exact h.subset (List.drop_subset _ _)

theorem printable_withExponent (l : Layout) (h : Printable digits) (leading : Int) :
    Printable (l.withExponent digits leading) := by
  have hpoint : Printable ['.'] := printable_of_ascii (by decide)
  have hexponent : Printable (l.exponent leading) := by
    refine Printable.append ?_ (printable_toString_int leading)
    split
    · exact printable_of_ascii (by decide)
    · nofun
  refine ((h.subset (List.take_subset _ _)).append ?_).append
    ((printable_of_ascii (s := ['e']) (by decide)).append hexponent)
  split
  · nofun
  · exact hpoint.append (h.subset (List.drop_subset _ _))

theorem printable_text (l : Layout) (x : Binary64) : Printable (l.text x).toList := by
  have hsign : Printable (if x.negative then "-" else "").toList := by
    split <;> exact printable_of_ascii (by decide)
  unfold text
  split
  · exact printable_of_ascii (by decide)
  · dsimp only
    split
    · rw [String.toList_append]
      exact hsign.append (printable_of_ascii (by decide))
    · split
      · rw [String.toList_append]
        exact hsign.append (printable_of_ascii (by decide))
      · rw [String.toList_append, String.toList_ofList]
        refine hsign.append ?_
        unfold magnitude
        dsimp only
        split
        · exact printable_positional (printable_digits _) _
        · exact printable_withExponent l (printable_digits _) _

end Layout

/-- No value brings the end of a line into its listing. -/
theorem Value.printable_listing (v : Value) : Printable v.listing.toList := by
  have parenthesized {word content : String} (hw : Printable word.toList)
      (h : Printable content.toList) : Printable (word ++ content ++ ")").toList := by
    rw [String.toList_append, String.toList_append]
    exact (hw.append h).append (printable_of_ascii (by decide))
  cases v with
  | null => exact printable_of_ascii (by decide)
  | bool b =>
    exact parenthesized (printable_of_ascii (by decide))
      (by cases b <;> exact printable_of_ascii (by decide))
  | int n => exact parenthesized (printable_of_ascii (by decide)) (printable_toString_int _)
  | float x => exact parenthesized (printable_of_ascii (by decide)) (Layout.printable_text _ x)
  | text s => exact parenthesized (printable_of_ascii (by decide)) (Escaped.printable_token s)
  | blob bytes =>
    refine parenthesized (printable_of_ascii (by decide)) (printable_listed fun item hitem => ?_)
    obtain ⟨b, -, rfl⟩ := List.mem_map.1 hitem
    exact printable_toString_int b.toNat

/-! The shapes of values. -/

namespace Value

/-- A value that is no float. -/
def Exact (v : Value) : Prop := ∀ x, v ≠ .float x

/-- The letters that tell the shape of a value. -/
def initials : Value → List Char
  | null => ['N', 'u']
  | bool _ => ['B', 'o']
  | int _ => ['I', 'n']
  | float _ => ['F', 'l']
  | text _ => ['T', 'e']
  | blob _ => ['B', 'l']

theorem take_listing (v : Value) (r : List Char) : (v.listing.toList ++ r).take 2 = v.initials := by
  cases v <;> simp only [listing, String.toList_append] <;> rfl

theorem head?_listing_ne (v : Value) (r : List Char) : (v.listing.toList ++ r).head? ≠ some ']' := by
  intro h
  have hinitials : v.initials.head? = some ']' := by
    rw [← take_listing v r, List.head?_take, if_neg (by decide), h]
  cases v <;> simp [initials] at hinitials

theorem delimited_bool : Delimited Set.univ Anything fun b => (bool b).listing.toList := by
  have hletters (b : Bool) : (if b then "true" else "false").toList.all Char.isAlpha = true := by
    revert b
    decide
  have hword : Delimited Set.univ (fun r => ∀ c ∈ r.head?, c.isAlpha = false)
      fun b : Bool => (if b then "true" else "false").toList :=
    .of_all (fun b _ c _ => by revert b c; decide) fun b _ => List.all_eq_true.1 (hletters b)
  exact hword.parenthesized (fun r c hc => by cases hc; rfl) "Bool("

theorem delimited_int : Delimited Set.univ Anything fun n => (int n).listing.toList := by
  have hdigits : Delimited Set.univ (fun r => ∀ c ∈ r.head?, isSignOrDigit c = false)
      fun n : Int64 => (toString n.toInt).toList :=
    .of_all (fun n _ m _ h => toString_toInt_injective (String.toList_injective h))
      fun n _ => isSignOrDigit_of_mem (isInteger_toString n.toInt)
  exact hdigits.parenthesized (fun r c hc => by cases hc; rfl) "Int("

theorem delimited_text : Delimited Set.univ Anything fun s => (text s).listing.toList :=
  Escaped.delimited_token.parenthesized (fun _ => trivial) "Text("

theorem delimited_blob : Delimited Set.univ Anything fun bytes => (blob bytes).listing.toList := by
  have hbyte : Delimited Set.univ (fun r => ∀ c ∈ r.head?, c.isDigit = false)
      fun b : UInt8 => (toString b.toNat).toList :=
    delimited_toString_nat.comap (fun _ _ _ _ h => UInt8.toNat_inj.1 h) fun _ _ => trivial
  have hne (b : UInt8) (r : List Char) : ((toString b.toNat).toList ++ r).head? ≠ some ']' := by
    rw [toList_toString_nat]
    obtain ⟨c, cs, hcs⟩ := List.exists_cons_of_ne_nil (Nat.toDigits_ne_nil (b := 10) (n := b.toNat))
    have hc : c.isDigit = true := Reader.isDigit_of_mem_toDigits c (hcs ▸ List.mem_cons_self)
    rw [hcs]
    intro he
    rw [Option.some.inj he] at hc
    cases hc
  have hbytes := hbyte.listed (fun r c hc => by cases hc; rfl) (fun r c hc => by cases hc; rfl)
    fun b _ => hne b
  exact (hbytes.mono fun _ _ _ _ => trivial).parenthesized (fun _ => trivial) "Blob("

/-- The listing of a value that is no float tells the value and its own end. -/
theorem delimited_listing : Delimited {v | Exact v} Anything fun v => v.listing.toList := by
  intro v hv w hw r t hr ht h
  have hinitials : v.initials = w.initials := by
    rw [← take_listing v r, ← take_listing w t, h]
  -- the shapes are the same, and what is in a value of each shape is delimited
  cases v with
  | float x => exact absurd rfl (hv x)
  | null =>
    cases w with
    | null => exact ⟨rfl, List.append_cancel_left h⟩
    | bool | int | float | text | blob => simp [initials] at hinitials
  | bool b =>
    cases w with
    | bool b' =>
      obtain ⟨rfl, hrest⟩ := delimited_bool trivial trivial hr ht h
      exact ⟨rfl, hrest⟩
    | null | int | float | text | blob => simp [initials] at hinitials
  | int n =>
    cases w with
    | int m =>
      obtain ⟨rfl, hrest⟩ := delimited_int trivial trivial hr ht h
      exact ⟨rfl, hrest⟩
    | null | bool | float | text | blob => simp [initials] at hinitials
  | text s =>
    cases w with
    | text s' =>
      obtain ⟨rfl, hrest⟩ := delimited_text trivial trivial hr ht h
      exact ⟨rfl, hrest⟩
    | null | bool | int | float | blob => simp [initials] at hinitials
  | blob bytes =>
    cases w with
    | blob bytes' =>
      obtain ⟨rfl, hrest⟩ := delimited_blob trivial trivial hr ht h
      exact ⟨rfl, hrest⟩
    | null | bool | int | float | text => simp [initials] at hinitials

end Value

/-- Lists of values that are no floats are told apart by their listings. -/
theorem delimited_listings :
    Delimited {vs | ∀ v ∈ vs, v.Exact} Anything fun vs => (listing vs).toList :=
  Value.delimited_listing.listed (fun _ => trivial) (fun _ => trivial) fun v _ => v.head?_listing_ne

theorem printable_listing (vs : List Value) : Printable (listing vs).toList :=
  printable_listed fun item hitem => by
    obtain ⟨v, -, rfl⟩ := List.mem_map.1 hitem
    exact v.printable_listing

end BoundSql
