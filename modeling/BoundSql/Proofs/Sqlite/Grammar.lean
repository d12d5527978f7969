import Mathlib.Computability.Language
import Mathlib.Order.CompletePartialOrder
import BoundSql.Proofs.Sqlite.Tokens

/-! The simple queries of SQLite as a language over the words and signs of a text. A text that says a
sentence of one language and one that goes on with a sentence of another say a sentence of their
product, so that a text is held against the grammar part by part. A language whose sentences lack a
word tells what the grammar does not allow. -/

namespace BoundSql.Sqlite.Grammar

open Reader
open scoped Computability

/-- A keyword in any letter case. -/
def keyword (w : String) : Language Token :=
  {ts | ∃ s, ts = [(.word, s)] ∧ Declaration.upper s = w}

def sign (c : Char) : Language Token := {[(.sign, [c])]}

/-- A name between double quotes. -/
def name : Language Token := {ts | ∃ n, ts = [(.quoted, (Quoted.token '\"' n).toList)]}

def number : Language Token :=
  {ts | ∃ digits, ts = [(.word, digits)] ∧ digits ≠ [] ∧ ∀ c ∈ digits, c.isDigit = true}

def optionally (l : Language Token) : Language Token := 1 + l

/-- One item or more, with commas between them. -/
def listOf (l : Language Token) : Language Token := l * (sign ',' * l)∗

inductive IsExpr : List Token → Prop
  | column {ts : List Token} (h : ts ∈ name) : IsExpr ts
  | columnOf {ts : List Token} (h : ts ∈ name * (sign '.' * name)) : IsExpr ts
  | placeholder {ts : List Token} (h : ts ∈ sign '?') : IsExpr ts
  | equal {a e b : List Token} (ha : IsExpr a) (he : e ∈ sign '=') (hb : IsExpr b) :
    IsExpr (a ++ (e ++ b))
  | and {a e b : List Token} (ha : IsExpr a) (he : e ∈ keyword "AND") (hb : IsExpr b) :
    IsExpr (a ++ (e ++ b))

def expr : Language Token := {ts | IsExpr ts}

def resultColumn : Language Token := sign '*' + name * (sign '.' * sign '*') + expr

def orderingTerm : Language Token := expr * optionally (keyword "ASC" + keyword "DESC")

/-- A simple query up to its limit. -/
def unlimited : Language Token :=
  keyword "SELECT" * optionally (keyword "DISTINCT") * listOf resultColumn *
  (keyword "FROM" * name) * optionally (keyword "WHERE" * expr) *
  optionally (keyword "ORDER" * (keyword "BY" * listOf orderingTerm))

/-- A simple query. Rows are skipped as part of a limit only. -/
def simpleSelect : Language Token :=
  unlimited * optionally (keyword "LIMIT" * (number * optionally (keyword "OFFSET" * number)))

/-- A text stands for a sentence of a language, whatever new part follows. -/
def Stands (s : List Char) (l : Language Token) : Prop :=
  ∃ ts ∈ l, ∀ r, Ends r → tokens (s ++ r) = ts ++ tokens r

/-- A text that does not start with a space says a sentence of a language. -/
structure Says (s : List Char) (l : Language Token) : Prop where
  head : ∃ c t, s = c :: t ∧ TokenKind.isSpaceOrTab c = false
  sentence : Stands s l

/-- A text that starts a new part, if it is not empty, goes on with a sentence of a language. -/
structure Continues (s : List Char) (l : Language Token) : Prop where
  head : Ends s
  sentence : Stands s l

variable {s t : List Char} {l m : Language Token}

theorem ends_append {r : List Char} (hs : Ends s) (hr : Ends r) : Ends (s ++ r) := by
  cases s with
  | nil => exact hr
  | cons c s => exact fun d hd => hs d hd

theorem Stands.append (hs : Stands s l) (ht : Continues t m) : Stands (s ++ t) (l * m) := by
  obtain ⟨ts, hts, hs⟩ := hs
  obtain ⟨us, hus, hu⟩ := ht.sentence
  refine ⟨ts ++ us, Language.append_mem_mul hts hus, fun r hr => ?_⟩
  rw [List.append_assoc, hs _ (ends_append ht.head hr), hu r hr, List.append_assoc]

theorem Says.append (hs : Says s l) (ht : Continues t m) : Says (s ++ t) (l * m) := by
  obtain ⟨c, r, rfl, hc⟩ := hs.head
  exact ⟨⟨c, r ++ t, rfl, hc⟩, hs.sentence.append ht⟩

theorem Continues.append (hs : Continues s l) (ht : Continues t m) :
    Continues (s ++ t) (l * m) :=
  ⟨ends_append hs.head ht.head, hs.sentence.append ht⟩

theorem Stands.imp (hs : Stands s l) (h : l ≤ m) : Stands s m := by
  obtain ⟨ts, hts, hs⟩ := hs
  exact ⟨ts, h hts, hs⟩

theorem Says.imp (hs : Says s l) (h : l ≤ m) : Says s m := ⟨hs.head, hs.sentence.imp h⟩

theorem Continues.imp (hs : Continues s l) (h : l ≤ m) : Continues s m :=
  ⟨hs.head, hs.sentence.imp h⟩

theorem continues_nil : Continues [] 1 :=
  ⟨nofun, [], Language.nil_mem_one, fun _ _ => rfl⟩

theorem tokens_space_append (hs : Says s l) (r : List Char) :
    tokens (' ' :: s ++ r) = tokens (s ++ r) := by
  obtain ⟨c, t, rfl, hc⟩ := hs.head
  exact tokens_space hc _

theorem Says.spaced (hs : Says s l) : Continues (' ' :: s) l := by
  obtain ⟨ts, hts, h⟩ := hs.sentence
  refine ⟨ends_space s, ts, hts, fun r hr => ?_⟩
  rw [tokens_space_append hs, h r hr]

theorem Says.mem (hs : Says s l) : tokens s ∈ l := by
  obtain ⟨ts, hts, hs⟩ := hs.sentence
  have h := hs [] nofun
  rw [List.append_nil, tokens_nil, List.append_nil] at h
  rwa [h]

/-! Words, signs and names. -/

def IsKeyword (w : String) : Prop :=
  w ≠ "" ∧ w.toList.all Char.isAlpha = true ∧ Declaration.upper w.toList = w

instance : DecidablePred IsKeyword := fun _ => inferInstanceAs (Decidable (_ ∧ _))

theorem says_of_alphanum (hne : s ≠ []) (hs : ∀ c ∈ s, c.isAlphanum = true)
    (hl : [(.word, s)] ∈ l) : Says s l := by
  cases s with
  | nil => exact absurd rfl hne
  | cons c t =>
    exact ⟨⟨c, t, rfl, isSpaceOrTab_of_isAlphanum (hs c List.mem_cons_self)⟩, _, hl,
      fun r hr => tokens_word hs hr⟩

theorem says_keyword {w : String} (hw : IsKeyword w) : Says w.toList (keyword w) := by
  refine says_of_alphanum (fun h => hw.1 (String.toList_eq_nil_iff.1 h)) (fun c hc => ?_)
    ⟨_, rfl, hw.2.2⟩
  have := List.all_eq_true.1 hw.2.1 c hc
  simp [Char.isAlphanum, this]

theorem says_number (hne : s ≠ []) (hs : ∀ c ∈ s, c.isDigit = true) : Says s number :=
  says_of_alphanum hne (fun c hc => by simp [Char.isAlphanum, hs c hc]) ⟨s, rfl, hne, hs⟩

theorem says_sign {c : Char} (hc : c ∈ signs) : Says [c] (sign c) :=
  ⟨⟨c, [], rfl, isSpaceOrTab_of_mem_signs hc⟩, _, rfl, fun r _ => tokens_sign hc r⟩

theorem says_name (n : String) : Says (Quoted.token '\"' n).toList name :=
  ⟨⟨'\"', _, Quoted.toList_token _ n, by decide⟩, _, ⟨n, rfl⟩,
    fun r hr => tokens_name n fun c hc => by rcases hr c hc with rfl | rfl <;> decide⟩

/-- A name, and after a point a name or the star. -/
theorem says_point (n : String) (hs : Says s l) :
    Says ((Quoted.token '\"' n).toList ++ '.' :: s) (name * (sign '.' * l)) := by
  obtain ⟨ts, hts, h⟩ := hs.sentence
  refine ⟨⟨'\"', _, by rw [Quoted.toList_token]; rfl, by decide⟩, _,
    Language.append_mem_mul ⟨n, rfl⟩ (Language.append_mem_mul rfl hts), fun r hr => ?_⟩
  have hname := tokens_name n (r := '.' :: (s ++ r)) (fun c hc => by cases hc; decide)
  rw [List.append_assoc, List.cons_append, hname, tokens_sign (by decide), h r hr]
  rfl

/-! Parts behind keywords, and lists. -/

theorem Says.behind {w : String} (hw : IsKeyword w) (hs : Says s l) :
    Says (w.toList ++ ' ' :: s) (keyword w * l) := (says_keyword hw).append hs.spaced

variable {ι : Type} {f : ι → List Char}

theorem continues_flatMap {is : List ι} (h : ∀ i ∈ is, Continues (f i) l) :
    Continues (is.flatMap f) (l∗) := by
  induction is with
  | nil => exact continues_nil.imp one_le_kstar
  | cons i is ih =>
    have := (h i List.mem_cons_self).append (ih fun j hj => h j (.tail i hj))
    exact this.imp mul_kstar_le_kstar

theorem Says.comma (hs : Says s l) : Continues (", ".toList ++ s) (sign ',' * l) := by
  obtain ⟨ts, hts, h⟩ := hs.sentence
  refine ⟨ends_comma s, _, Language.append_mem_mul rfl hts, fun r hr => ?_⟩
  have : tokens (", ".toList ++ s ++ r) = (.sign, [',']) :: tokens (' ' :: s ++ r) :=
    tokens_sign (by decide) _
  rw [this, tokens_space_append hs, h r hr]
  rfl

theorem says_commas {is : List ι} (hne : is ≠ []) (h : ∀ i ∈ is, Says (f i) l) :
    Says (commas (is.map f)) (listOf l) := by
  obtain ⟨i, is, rfl⟩ := List.exists_cons_of_ne_nil hne
  rw [List.map_cons, commas_cons, List.flatMap_map]
  exact (h i List.mem_cons_self).append (continues_flatMap fun j hj => (h j (.tail i hj)).comma)

theorem Continues.optionally (hs : Continues s l) : Continues s (optionally l) :=
  hs.imp le_add_self

theorem continues_optionally_nil : Continues [] (optionally l) :=
  continues_nil.imp le_self_add

/-! Words that the sentences of a language lack. -/

def Has (w : String) (ts : List Token) : Prop := ∃ s, (.word, s) ∈ ts ∧ Declaration.upper s = w

def Lacks (w : String) (l : Language Token) : Prop := ∀ ts ∈ l, ¬Has w ts

theorem has_append {w : String} {ts us : List Token} : Has w (ts ++ us) ↔ Has w ts ∨ Has w us := by
  simp only [Has, List.mem_append, or_and_right, exists_or]

variable {w v : String}

theorem Lacks.mul (hl : Lacks w l) (hm : Lacks w m) : Lacks w (l * m) := by
  intro ts hts h
  obtain ⟨us, hus, vs, hvs, rfl⟩ := Language.mem_mul.1 hts
  exact (has_append.1 h).elim (hl us hus) (hm vs hvs)

theorem Lacks.add (hl : Lacks w l) (hm : Lacks w m) : Lacks w (l + m) := fun ts hts =>
  hts.elim (hl ts) (hm ts)

theorem lacks_one : Lacks w 1 := by
  rintro ts rfl ⟨s, hs, -⟩
  cases hs

theorem Lacks.optionally (hl : Lacks w l) : Lacks w (optionally l) := lacks_one.add hl

theorem Lacks.kstar (hl : Lacks w l) : Lacks w (l∗) := by
  rintro ts hts ⟨s, hs, hw⟩
  obtain ⟨parts, rfl, hparts⟩ := Language.mem_kstar.1 hts
  obtain ⟨us, hus, hs⟩ := List.mem_flatten.1 hs
  exact hl us (hparts us hus) ⟨s, hs, hw⟩

theorem Lacks.listOf (hl : Lacks w l) (hc : Lacks w (sign ',')) : Lacks w (listOf l) :=
  hl.mul (hc.mul hl).kstar

theorem lacks_keyword (h : w ≠ v) : Lacks w (keyword v) := by
  rintro ts ⟨s, rfl, hv⟩ ⟨t, ht, hw⟩
  cases List.mem_singleton.1 ht
  exact h (hw.symm.trans hv)

theorem lacks_sign {c : Char} : Lacks w (sign c) := by
  rintro ts rfl ⟨s, hs, -⟩
  cases List.mem_singleton.1 hs

theorem lacks_name : Lacks w name := by
  rintro ts ⟨n, rfl⟩ ⟨s, hs, -⟩
  cases List.mem_singleton.1 hs

theorem lacks_number (h : IsKeyword w) : Lacks w number := by
  rintro ts ⟨digits, rfl, hne, hdigits⟩ ⟨t, ht, rfl⟩
  cases List.mem_singleton.1 ht
  obtain ⟨c, r, rfl⟩ := List.exists_cons_of_ne_nil hne
  have halpha := h.2.1
  rw [Declaration.upper, String.toList_ofList, List.map_cons, List.all_cons,
    isAlpha_toUpper_of_isDigit (hdigits c List.mem_cons_self)] at halpha
  cases halpha

theorem lacks_expr (h : w ≠ "AND") : Lacks w expr := by
  intro ts hts
  induction hts with
  | column h => exact lacks_name _ h
  | columnOf h => exact (lacks_name.mul (lacks_sign.mul lacks_name)) _ h
  | placeholder h => exact lacks_sign _ h
  | equal ha he hb iha ihb =>
    intro hw
    exact (has_append.1 hw).elim iha fun hw => (has_append.1 hw).elim (lacks_sign _ he) ihb
  | and ha he hb iha ihb =>
    intro hw
    exact (has_append.1 hw).elim iha fun hw =>
      (has_append.1 hw).elim (lacks_keyword h _ he) ihb

theorem lacks_unlimited
    (h : w ∉ ["SELECT", "DISTINCT", "FROM", "WHERE", "AND", "ORDER", "BY", "ASC", "DESC"]) :
    Lacks w unlimited := by
  simp only [List.mem_cons, List.not_mem_nil, or_false, not_or] at h
  obtain ⟨hselect, hdistinct, hfrom, hwhere, hand, horder, hby, hasc, hdesc⟩ := h
  have hexpr := lacks_expr hand
  have hcolumn : Lacks w resultColumn :=
    (lacks_sign.add (lacks_name.mul (lacks_sign.mul lacks_sign))).add hexpr
  have hterm : Lacks w orderingTerm :=
    hexpr.mul ((lacks_keyword hasc).add (lacks_keyword hdesc)).optionally
  exact (((((lacks_keyword hselect).mul (lacks_keyword hdistinct).optionally).mul
    (hcolumn.listOf lacks_sign)).mul ((lacks_keyword hfrom).mul lacks_name)).mul
    ((lacks_keyword hwhere).mul hexpr).optionally).mul
    ((lacks_keyword horder).mul ((lacks_keyword hby).mul (hterm.listOf lacks_sign))).optionally

/-- Where rows are skipped, there is a limit. -/
theorem has_limit_of_simpleSelect {ts : List Token} (hts : ts ∈ simpleSelect)
    (h : Has "OFFSET" ts) : Has "LIMIT" ts := by
  obtain ⟨us, hus, vs, hvs, rfl⟩ := Language.mem_mul.1 hts
  have hoffset := (has_append.1 h).resolve_left (lacks_unlimited (by decide) us hus)
  refine has_append.2 (.inr ?_)
  obtain hvs | hvs := hvs
  · exact absurd hoffset (lacks_one vs hvs)
  · obtain ⟨ks, ⟨s, rfl, hs⟩, ns, -, rfl⟩ := Language.mem_mul.1 hvs
    exact ⟨s, List.mem_append_left _ List.mem_cons_self, hs⟩

end BoundSql.Sqlite.Grammar
