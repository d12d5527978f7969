import BoundSql.Proofs.Command.Draft
import BoundSql.Proofs.Text.Reader

/-! Options as they are written: by name or by letter, with the value behind an equals sign, directly
behind the letter, or in the next argument. However options are written, they are the ones that are
given, in their order. -/

namespace BoundSql.Command

variable {ο : Type}

/-- Options that are told apart by their names and by their letters. -/
structure Distinct (flags : List (Flag ο)) : Prop where
  name : ∀ f ∈ flags, flags.find? (·.name = f.name) = some f
  letter : ∀ f ∈ flags, ∀ c, f.letter = some c → flags.find? (·.letter = some c) = some f
  plain : ∀ f ∈ flags, f.name ≠ "" ∧ '=' ∉ f.name.toList ∧ f.letter ≠ some '-'

/-- An option without its value. -/
inductive Spelled (f : Flag ο) : List Char → Prop
  | name : Spelled f ('-' :: '-' :: f.name.toList)
  | letter {c : Char} (h : f.letter = some c) : Spelled f ['-', c]

/-- An argument that is no option: it begins with no hyphen, or it is one. -/
def Word (s : String) : Prop := s.toList = ['-'] ∨ s.toList.head? ≠ some '-'

/-- The ways to write an option. -/
inductive Written (flags : List (Flag ο)) : Setting ο → List String → Prop
  | alone {f : Flag ο} {s : String} (hf : f ∈ flags) (hv : f.valueName = none) (hs : Spelled f s.toList) :
    Written flags ⟨f, ""⟩ [s]
  | equals {f : Flag ο} {s : String} (hf : f ∈ flags) (hv : f.valueName ≠ none)
      (hs : Spelled f s.toList) (v : String) : Written flags ⟨f, v⟩ [s ++ "=" ++ v]
  | direct {f : Flag ο} {s v : String} {c : Char} (hf : f ∈ flags) (hv : f.valueName ≠ none)
      (hc : f.letter = some c) (hs : s.toList = ['-', c]) (hne : v ≠ "")
      (hfirst : v.toList.head? ≠ some '=') : Written flags ⟨f, v⟩ [s ++ v]
  | apart {f : Flag ο} {s v : String} (hf : f ∈ flags) (hv : f.valueName ≠ none)
      (hs : Spelled f s.toList) (hword : Word v) : Written flags ⟨f, v⟩ [s, v]

/-- What an option says with what stands behind its name or its letter. -/
def Flag.reading (f : Flag ο) : List Char → Reading ο
  | [] => if f.valueName.isNone then .options [⟨f, ""⟩] .complete else .options [] (.waiting f)
  | r => .options [⟨f, attached r⟩] .complete

theorem Flag.reading_cons (f : Flag ο) (c : Char) (r : List Char) :
    f.reading (c :: r) = .options [⟨f, attached (c :: r)⟩] .complete := rfl

variable {flags : List (Flag ο)} {f : Flag ο} {s : String} {cs r : List Char}

theorem readArgument_word (h : Word s) : readArgument flags s = .word s := by
  unfold readArgument
  rcases h with h | h
  · rw [h]
    rfl
  · split <;> simp_all

theorem readArgument_letter (hd : Distinct flags) (hf : f ∈ flags) {c : Char}
    (hc : f.letter = some c) (hs : s.toList = '-' :: c :: r) (hr : r = [] ∨ f.valueName ≠ none) :
    readArgument flags s = f.reading r := by
  have hhyphen : c ≠ '-' := fun h => (hd.plain f hf).2.2 (h ▸ hc)
  have hletters : readArgument flags s = readLetters flags [] (c :: r) := by
    unfold readArgument
    rw [hs]
    split <;> simp_all
  rw [hletters, readLetters, hd.letter f hf c hc]
  cases hv : f.valueName with
  | none =>
    obtain rfl := hr.resolve_right (not_not_intro hv)
    simp [Flag.reading, hv, readLetters]
  | some v =>
    cases r <;> simp [Flag.reading, hv]

theorem readArgument_name (hd : Distinct flags) (hf : f ∈ flags)
    (hs : s.toList = '-' :: '-' :: (f.name.toList ++ r))
    (hr : r = [] ∨ f.valueName ≠ none ∧ r.head? = some '=') :
    readArgument flags s = f.reading r := by
  obtain ⟨hne, hequals, -⟩ := hd.plain f hf
  have hname : readArgument flags s = readName flags (f.name.toList ++ r) := by
    obtain ⟨c, cs, hcs⟩ := List.exists_cons_of_ne_nil fun h => hne (String.toList_injective h)
    unfold readArgument
    rw [hs, hcs]
    rfl
  have htake : (f.name.toList ++ r).takeWhile (· ≠ '=') = f.name.toList := by
    refine Reader.takeWhile_append_of_head (fun c hc => ?_) fun c hc => ?_
    · exact decide_eq_true fun h : c = '=' => hequals (h ▸ hc)
    · rcases hr with rfl | ⟨-, hr⟩
      · cases hc
      · cases hr.symm.trans hc
        rfl
  rw [hname, readName]
  simp only [htake, List.drop_left, String.ofList_toList, hd.name f hf]
  rcases hr with rfl | ⟨hv, hr⟩
  · rfl
  · cases r with
    | nil => cases hr
    | cons c r => simp [Flag.reading, hv]

theorem readArgument_spelled (hd : Distinct flags) (hf : f ∈ flags) (h : Spelled f cs)
    (hs : s.toList = cs ++ r) (hr : r = [] ∨ f.valueName ≠ none ∧ r.head? = some '=') :
    readArgument flags s = f.reading r := by
  cases h with
  | name => exact readArgument_name hd hf hs hr
  | letter hc => exact readArgument_letter hd hf hc hs (hr.imp_right And.left)

/-- What is known of an option behind which the arguments go on. -/
def Pending.settings : Pending ο → List (Setting ο)
  | .given s => [s]
  | .none | .waiting _ => []

theorem Pending.settle_note_eq {p : Pending ο} (hp : ∀ f, p ≠ .waiting f) (l : List (Setting ο)) :
    p.settle note l = .ok (l ++ p.settings) := by
  cases p with
  | none =>
    rw [settings, List.append_nil]
    rfl
  | waiting f => exact absurd rfl (hp f)
  | given s => rfl

namespace Scan

variable {p : Pending ο} {l : List (Setting ο)} {x : Setting ο} {a : String} {written : List String}

theorem read_note_options {given : List (Setting ο)} {ending : Ending ο} {p' : Pending ο}
    (hp : ∀ f, p ≠ .waiting f) (ha : readArgument flags a = .options given ending)
    (hp' : ending.pending? = some p') (rest : List String) :
    read flags note l p (a :: rest) = read flags note (l ++ p.settings ++ given) p' rest := by
  rw [read_options ha hp', p.settle_note_eq hp]
  change (given.foldlM note (l ++ p.settings) >>= _) = _
  rw [foldlM_note]
  rfl

/-- A written option is noted down behind those before it, whatever follows. -/
theorem read_written (hd : Distinct flags) (h : Written flags x written) (hp : ∀ f, p ≠ .waiting f)
    (rest : List String) :
    ∃ l' p', (∀ f, p' ≠ Pending.waiting f) ∧ l' ++ p'.settings = l ++ p.settings ++ [x] ∧
      read flags note l p (written ++ rest) = read flags note l' p' rest := by
  cases h with
  | alone hf hv hs =>
    have ha := readArgument_spelled hd hf hs (List.append_nil _).symm (.inl rfl)
    rw [Flag.reading, hv] at ha
    exact ⟨_, .none, nofun, List.append_nil _, read_note_options hp ha rfl rest⟩
  | @equals f s hf hv hs v =>
    have htext : (s ++ "=" ++ v).toList = s.toList ++ '=' :: v.toList := by
      rw [String.toList_append, String.toList_append, List.append_assoc]
      rfl
    have ha := readArgument_spelled hd hf hs htext (.inr ⟨hv, rfl⟩)
    rw [Flag.reading_cons, attached, String.ofList_toList] at ha
    exact ⟨_, .none, nofun, List.append_nil _, read_note_options hp ha rfl rest⟩
  | @direct f s v c hf hv hc hs hne hfirst =>
    obtain ⟨d, ds, hds⟩ := List.exists_cons_of_ne_nil fun h => hne (String.toList_injective h)
    have hattached : attached v.toList = v := by
      unfold attached
      split
      · next h => exact absurd (congrArg List.head? h) hfirst
      · exact String.ofList_toList
    have htext : (s ++ v).toList = '-' :: c :: v.toList := by
      rw [String.toList_append, hs]
      rfl
    have ha := readArgument_letter hd hf hc htext (.inr hv)
    rw [hds, Flag.reading_cons, ← hds, hattached] at ha
    exact ⟨_, .none, nofun, List.append_nil _, read_note_options hp ha rfl rest⟩
  | @apart f s v hf hv hs hword =>
    have ha := readArgument_spelled hd hf hs (List.append_nil _).symm (.inl rfl)
    rw [Flag.reading, if_neg (by simpa using hv)] at ha
    refine ⟨l ++ p.settings, .given ⟨f, v⟩, nofun, rfl, ?_⟩
    rw [List.cons_append, read_note_options hp ha rfl, List.append_nil, List.cons_append, read]
    simp only [readArgument_word hword, List.nil_append]

theorem settle_read_written (hd : Distinct flags) {xs : List (Setting ο)}
    {written : List (List String)} (h : List.Forall₂ (Written flags) xs written)
    (hp : ∀ f, p ≠ .waiting f) :
    (read flags note l p written.flatten >>= settle note) = .ok (l ++ p.settings ++ xs) := by
  induction h generalizing l p with
  | nil =>
    rw [List.append_nil]
    exact p.settle_note_eq hp l
  | @cons x xs _ _ hx _ ih =>
    obtain ⟨l', p', hp', hsame, hread⟩ := read_written (l := l) hd hx hp _
    rw [List.flatten_cons, hread, ih hp', hsame, List.append_assoc]
    rfl

/-- The options that are given are those that are written, in whatever ways. -/
theorem settings_written (hd : Distinct flags) {xs : List (Setting ο)}
    {written : List (List String)} (h : List.Forall₂ (Written flags) xs written) :
    settings flags written.flatten = .ok xs :=
  settle_read_written hd h nofun

end Scan

theorem QueryOption.distinct_flags : Distinct QueryOption.flags where
  name := List.forall_mem_map.2 fun o _ => by cases o <;> rfl
  letter := List.forall_mem_map.2 fun o _ c hc => by cases o <;> cases hc <;> rfl
  plain := List.forall_mem_map.2 fun o _ => by cases o <;> decide

/-- A request is what the options that are written ask for. -/
theorem Request.askedBy_written {xs : List (Setting QueryOption)} {written : List (List String)}
    (h : List.Forall₂ (Written QueryOption.flags) xs written) {r : Request}
    (hr : ofArguments written.flatten = .ok r) : r.AskedBy xs := by
  obtain ⟨given, hgiven, hasked⟩ := askedBy_ofArguments hr
  cases (Scan.settings_written QueryOption.distinct_flags h).symm.trans hgiven
  exact hasked

end BoundSql.Command
