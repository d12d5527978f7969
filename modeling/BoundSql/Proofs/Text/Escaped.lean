import BoundSql.Proofs.Text.Delimited
import BoundSql.Text.Escaped
import Mathlib.Data.List.Nodup

/-! Listed text is read in one way only and is printable throughout. A character is written as itself,
by a short name, or by its number, and none of these forms can be taken for the start of another; the
double quote is the start of none, so it ends the text. -/

namespace BoundSql

/-- Every character has an appearance of its own. Ends of lines have none. -/
def Printable (cs : List Char) : Prop := ∀ c ∈ cs, isUnprintable c = false

section Printable

variable {c : Char} {s t : List Char}

/-- The ranges of the table lie around the characters from the space to the tilde. -/
theorem isUnprintable_of_ascii (hlow : 32 ≤ c.toNat) (hhigh : c.toNat ≤ 126) :
    isUnprintable c = false := by
  have hranges : unprintableRanges.all (fun range => range.2 < 32 || 126 < range.1) = true := by
    decide +kernel
  refine List.any_eq_false.2 fun range hmem => ?_
  have hrange := List.all_eq_true.1 hranges range hmem
  simp only [Bool.or_eq_true, decide_eq_true_eq] at hrange
  simp only [Bool.and_eq_true, decide_eq_true_eq, not_and, not_le]
  omega

theorem Printable.append (hs : Printable s) (ht : Printable t) : Printable (s ++ t) := fun c hc =>
  (List.mem_append.1 hc).elim (hs c) (ht c)

theorem Printable.subset (ht : Printable t) (h : s ⊆ t) : Printable s := fun c hc => ht c (h hc)

theorem printable_flatMap {ι : Type} {f : ι → List Char} {is : List ι}
    (h : ∀ i ∈ is, Printable (f i)) : Printable (is.flatMap f) := by
  intro c hc
  obtain ⟨i, hi, hc⟩ := List.mem_flatMap.1 hc
  exact h i hi c hc

/-- Words of characters from the space to the tilde. -/
theorem printable_of_ascii (h : s.all (fun c => 32 ≤ c.toNat && c.toNat ≤ 126) = true) :
    Printable s := by
  intro c hc
  have hc := List.all_eq_true.1 h c hc
  simp only [Bool.and_eq_true, decide_eq_true_eq] at hc
  exact isUnprintable_of_ascii hc.1 hc.2

theorem Printable.on_one_line (h : Printable s) : '\n' ∉ s ∧ '\r' ∉ s :=
  ⟨fun hn => absurd (h _ hn) (by decide), fun hr => absurd (h _ hr) (by decide)⟩

end Printable

namespace Escaped

/-! Hexadecimal digits. -/

theorem mem_of_mem_toDigits {n : Nat} {c : Char} (h : c ∈ Nat.toDigits 16 n) :
    c ∈ "0123456789abcdef".toList := by
  have hdigit : ∀ d < 16, Nat.digitChar d ∈ "0123456789abcdef".toList := by decide
  induction n using Nat.strongRecOn with
  | ind n ih =>
    rw [Nat.toDigits_eq_if (by decide)] at h
    split at h
    · rename_i hn
      rw [List.mem_singleton.1 h]
      exact hdigit n hn
    · rename_i hn
      obtain h | h := List.mem_append.1 h
      · exact ih (n / 16) (by omega) h
      · rw [List.mem_singleton.1 h]
        exact hdigit _ (Nat.mod_lt n (by decide))

theorem toDigits_ne_of_lt {n m : Nat} (hn : n < 16) (hm : 16 ≤ m) :
    Nat.toDigits 16 n ≠ Nat.toDigits 16 m := by
  rw [Nat.toDigits_of_lt_base hn, Nat.toDigits_of_base_le (by decide) hm]
  intro h
  have hlength := congrArg List.length h
  have hpos : 0 < (Nat.toDigits 16 (m / 16)).length := List.length_pos_iff.2 Nat.toDigits_ne_nil
  simp only [List.length_append, List.length_singleton] at hlength
  omega

theorem toDigits_injective : Function.Injective (Nat.toDigits 16) := by
  have hdigit : ∀ d < 16, ∀ e < 16, Nat.digitChar d = Nat.digitChar e → d = e := by decide
  intro n
  induction n using Nat.strongRecOn with
  | ind n ih =>
    intro m h
    by_cases hn : n < 16
    · by_cases hm : m < 16
      · rw [Nat.toDigits_of_lt_base hn, Nat.toDigits_of_lt_base hm] at h
        exact hdigit n hn m hm (List.singleton_inj.1 h)
      · exact absurd h (toDigits_ne_of_lt hn (not_lt.1 hm))
    · by_cases hm : m < 16
      · exact absurd h.symm (toDigits_ne_of_lt hm (not_lt.1 hn))
      · rw [Nat.toDigits_of_base_le (by decide) (not_lt.1 hn),
          Nat.toDigits_of_base_le (by decide) (not_lt.1 hm)] at h
        obtain ⟨hfront, hlast⟩ := List.append_inj' h rfl
        have hdiv := ih (n / 16) (by omega) hfront
        have hmod := hdigit _ (Nat.mod_lt n (by decide)) _ (Nat.mod_lt m (by decide))
          (List.singleton_inj.1 hlast)
        omega

/-! The forms of a character. -/

/-- The characters with a short name, and their names. -/
def names : List (Char × Char) :=
  [('\"', '\"'), ('\\', '\\'), ('\n', 'n'), ('\r', 'r'), ('\t', 't'), ('\x00', '0')]

/-- The ways in which characters are written. -/
inductive Form : Char → List Char → Prop
  | named {c x : Char} (h : (c, x) ∈ names) : Form c ['\\', x]
  | numbered (c : Char) : Form c (number c)
  | plain {c : Char} (hquote : c ≠ '\"') (hbackslash : c ≠ '\\') (h : isUnprintable c = false) :
    Form c [c]

theorem form_char (c : Char) : Form c (char c) := by
  unfold char
  split_ifs with hquote hbackslash hn hr ht h0 hp
  · exact .named (by simp [names, hquote])
  · exact .named (by simp [names, hbackslash])
  · exact .named (by simp [names, hn])
  · exact .named (by simp [names, hr])
  · exact .named (by simp [names, ht])
  · exact .named (by simp [names, h0])
  · exact .numbered c
  · exact .plain hquote hbackslash (Bool.eq_false_iff.2 hp)

theorem printable_number (c : Char) : Printable (number c) := by
  have hdigits : Printable (Nat.toDigits 16 c.toNat) := fun d hd =>
    printable_of_ascii (s := "0123456789abcdef".toList) (by decide) d (mem_of_mem_toDigits hd)
  exact (printable_of_ascii (s := ['\\', 'u', '\x7b']) (by decide)).append
    (hdigits.append (printable_of_ascii (s := ['\x7d']) (by decide)))

theorem Form.printable {c : Char} {cs : List Char} (h : Form c cs) : Printable cs := by
  cases h with
  | named h =>
    have hbackslash : Printable ['\\'] := printable_of_ascii (by decide)
    have hnames : Printable (names.map Prod.snd) := printable_of_ascii (by decide)
    exact hbackslash.append fun d hd =>
      hnames d (List.mem_singleton.1 hd ▸ List.mem_map_of_mem h)
  | numbered => exact printable_number c
  | plain _ _ h =>
    intro d hd
    rw [List.mem_singleton.1 hd, h]

theorem Form.head?_ne_quote {c : Char} {cs : List Char} (h : Form c cs) (r : List Char) :
    (cs ++ r).head? ≠ some '\"' := by
  intro he
  cases h with
  | named h => cases he
  | numbered => cases he
  | plain hquote _ _ => exact hquote (Option.some.inj he)

theorem delimited_number : Delimited Set.univ Anything number := by
  have hdigits : Delimited Set.univ (fun r => ∀ c ∈ r.head?, (c != '\x7d') = false)
      fun c : Char => Nat.toDigits 16 c.toNat := by
    refine .of_all (fun c _ d _ h => Char.toNat_inj.1 (toDigits_injective h)) fun c _ d hd => ?_
    have hbrace : "0123456789abcdef".toList.all (· != '\x7d') = true := by decide
    exact List.all_eq_true.1 hbrace d (mem_of_mem_toDigits hd)
  exact (hdigits.closed ['\x7d'] fun r c hc => by cases hc; rfl).behind
    ['\\', 'u', '\x7b']

/-- No form can be taken for the start of another. -/
theorem Form.delimits {c d : Char} {cs ds r t : List Char} (hc : Form c cs) (hd : Form d ds)
    (h : cs ++ r = ds ++ t) : c = d ∧ r = t := by
  have hnames : (names.map Prod.snd).Nodup := by decide
  have hu : 'u' ∉ names.map Prod.snd := by decide
  cases hc with
  | named hc =>
    cases hd with
    | named hd =>
      obtain ⟨hx, hrest⟩ := List.cons.inj (List.cons.inj h).2
      exact ⟨congrArg Prod.fst (List.inj_on_of_nodup_map hnames hc hd hx), hrest⟩
    | numbered =>
      have hx := (List.cons.inj (List.cons.inj h).2).1
      exact absurd (hx ▸ List.mem_map_of_mem hc) hu
    | plain _ hbackslash _ => exact absurd (List.cons.inj h).1.symm hbackslash
  | numbered =>
    cases hd with
    | named hd =>
      have hx := (List.cons.inj (List.cons.inj h).2).1.symm
      exact absurd (hx ▸ List.mem_map_of_mem hd) hu
    | numbered => exact delimited_number trivial trivial trivial trivial h
    | plain _ hbackslash _ => exact absurd (List.cons.inj h).1.symm hbackslash
  | plain _ hbackslash _ =>
    cases hd with
    | named | numbered => exact absurd (List.cons.inj h).1 hbackslash
    | plain => exact List.cons.inj h

theorem delimited_char : Delimited Set.univ Anything char := fun c _ d _ _ _ _ _ h =>
  (form_char c).delimits (form_char d) h

/-- A listed text ends with its closing quote. -/
theorem delimited_token : Delimited Set.univ Anything fun s => (token s).toList := by
  have hchars : Delimited {cs | ∀ c ∈ cs, c ∈ Set.univ} (fun r => r.head? = some '\"')
      (List.flatMap char) :=
    delimited_char.flatMap (fun _ _ _ => trivial) (fun _ _ => trivial) fun c _ r =>
      (form_char c).head?_ne_quote r
  have htoken := (hchars.closed ['\"'] fun r => rfl).behind ['\"']
  have htext : (fun s => (token s).toList) =
      fun s => ['\"'] ++ (List.flatMap char s.toList ++ ['\"']) := funext toList_token
  rw [htext]
  exact htoken.comap (fun _ _ _ _ h => String.toList_injective h) fun _ _ _ _ => trivial

theorem printable_token (s : String) : Printable (token s).toList := by
  have hquote : Printable ['\"'] := printable_of_ascii (by decide)
  rw [toList_token]
  exact hquote.append ((printable_flatMap fun c _ => (form_char c).printable).append hquote)

end Escaped

end BoundSql
