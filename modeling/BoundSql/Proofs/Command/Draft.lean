import Mathlib.Data.List.Forall2
import BoundSql.Command.Request
import BoundSql.Proofs.Command.Arguments

/-! What the options of a command line ask for. Each option adds the text of its value to one part
of the request, so an accepted request holds, part by part, what all options have given for it. -/

namespace BoundSql.Command

variable {α : Type}

/-- Each text is read, and none is refused. -/
abbrev Reads (f : String → Except String α) (ss : List String) (as : List α) : Prop :=
  List.Forall₂ (fun s a => f s = .ok a) ss as

/-- The values given for one option, in their order. -/
def textsOf (o : QueryOption) (given : List (Setting QueryOption)) : List String :=
  (given.filter (·.flag.option = o)).map (·.value)

/-- A request for what some options give. -/
structure Request.AskedBy (r : Request) (given : List (Setting QueryOption)) : Prop where
  table : textsOf .table given = [r.table]
  columns : r.columns = textsOf .column given
  filters : Reads readFilter (textsOf .filter given) r.filters
  orderings : Reads readOrdering (textsOf .orderBy given) r.orderings
  limit : Reads readCount (textsOf .limit given) r.limit.toList
  offset : Reads readCount (textsOf .offset given) r.offset.toList
  distinct : r.distinct = !(textsOf .distinct given).isEmpty

section Options

variable {s : Setting QueryOption} {d d' : Draft}

theorem textsOf_append (o : QueryOption) (given : List (Setting QueryOption))
    (s : Setting QueryOption) :
    textsOf o (given ++ [s]) = textsOf o given ++ if s.flag.option = o then [s.value] else [] := by
  by_cases h : s.flag.option = o <;> simp [textsOf, List.filter_append, h]

theorem map_eq_ok {f : String → Except String α} {g : α → Draft}
    (h : (s.read f).map g = .ok d) : ∃ a, f s.value = .ok a ∧ d = g a := by
  cases hr : s.read f with
  | error e =>
    rw [hr] at h
    cases h
  | ok a =>
    rw [hr] at h
    cases h
    exact ⟨a, Setting.read_eq_ok hr, rfl⟩

/-- What a draft holds of the values that were given for an option. -/
def Draft.Holds (d : Draft) : QueryOption → List String → Prop
  | .table, ts => ts = d.table.toList
  | .column, ts => d.columns = ts
  | .filter, ts => Reads readFilter ts d.filters
  | .orderBy, ts => Reads readOrdering ts d.orderings
  | .limit, ts => Reads readCount ts d.limit.toList
  | .offset, ts => Reads readCount ts d.offset.toList
  | .distinct, ts => d.distinct = !ts.isEmpty
  | .help, ts => ts = []

theorem Reads.snoc {f : String → Except String α} {ts : List String} {as : List α} {t : String}
    {a : α} (h : Reads f ts as) (ht : f t = .ok a) : Reads f (ts ++ [t]) (as ++ [a]) :=
  List.rel_append h (.cons ht .nil)

/-- An option adds its value to what is held of this option, and to nothing else. -/
theorem Draft.add_holds (h : d.add s = .ok d') {o : QueryOption} {ts : List String}
    (hd : d.Holds o ts) : d'.Holds o (ts ++ if s.flag.option = o then [s.value] else []) := by
  unfold add at h
  -- the option decides which part of the draft changes, and what is held for the others stays
  cases hs : s.flag.option <;> simp only [hs] at h
  case table =>
    obtain ⟨hnew, h⟩ := Setting.once_eq_ok h
    cases h
    cases o with
    | table =>
      have hnone : d.table = none := by simpa using hnew
      have hts : ts = d.table.toList := hd
      rw [hts, hnone]
      rfl
    | _ => simpa [Holds] using hd
  case column =>
    cases h
    cases o with
    | column => exact congrArg (· ++ [s.value]) hd
    | _ => simpa [Holds] using hd
  case filter =>
    obtain ⟨f, hf, rfl⟩ := map_eq_ok h
    cases o with
    | filter => exact Reads.snoc hd hf
    | _ => simpa [Holds] using hd
  case orderBy =>
    obtain ⟨f, hf, rfl⟩ := map_eq_ok h
    cases o with
    | orderBy => exact Reads.snoc hd hf
    | _ => simpa [Holds] using hd
  case limit =>
    obtain ⟨hnew, h⟩ := Setting.once_eq_ok h
    obtain ⟨n, hn, rfl⟩ := map_eq_ok h
    cases o with
    | limit =>
      have hnone : d.limit = none := by simpa using hnew
      have hts : Reads readCount ts d.limit.toList := hd
      rw [hnone] at hts
      exact hts.snoc hn
    | _ => simpa [Holds] using hd
  case offset =>
    obtain ⟨hnew, h⟩ := Setting.once_eq_ok h
    obtain ⟨n, hn, rfl⟩ := map_eq_ok h
    cases o with
    | offset =>
      have hnone : d.offset = none := by simpa using hnew
      have hts : Reads readCount ts d.offset.toList := hd
      rw [hnone] at hts
      exact hts.snoc hn
    | _ => simpa [Holds] using hd
  case distinct =>
    obtain ⟨-, h⟩ := Setting.once_eq_ok h
    cases h
    cases o with
    | distinct => simp [Holds]
    | _ => simpa [Holds] using hd
  case help => cases h

/-- A draft that options have filled in holds the values given for each. -/
theorem Draft.foldlM_holds {before given : List (Setting QueryOption)}
    (hd : ∀ o, d.Holds o (textsOf o before)) (h : given.foldlM add d = .ok d') (o : QueryOption) :
    d'.Holds o (textsOf o (before ++ given)) := by
  induction given generalizing d before with
  | nil =>
    cases h
    rw [List.append_nil]
    exact hd o
  | cons s given ih =>
    obtain ⟨d₁, hs, h⟩ := bind_eq_ok h
    have hd₁ (o : QueryOption) : d₁.Holds o (textsOf o (before ++ [s])) := by
      rw [textsOf_append]
      exact add_holds hs (hd o)
    have := ih hd₁ h
    rwa [List.append_assoc] at this

theorem Draft.empty_holds (o : QueryOption) : ({} : Draft).Holds o (textsOf o []) := by
  cases o <;> first | rfl | exact .nil

theorem Draft.askedBy_finish {r : Request} {given : List (Setting QueryOption)}
    (hd : ∀ o, d.Holds o (textsOf o given)) (h : d.finish = .ok r) : r.AskedBy given := by
  unfold finish at h
  cases ht : d.table with
  | none =>
    rw [ht] at h
    cases h
  | some table =>
    rw [ht] at h
    cases h
    have htable : textsOf .table given = d.table.toList := hd .table
    rw [ht] at htable
    exact ⟨htable, hd .column, hd .filter, hd .orderBy, hd .limit, hd .offset, hd .distinct⟩

/-- An accepted command line asks for what its options give. -/
theorem Request.askedBy_ofArguments {arguments : List String} {r : Request}
    (h : ofArguments arguments = .ok r) :
    ∃ given, Scan.settings QueryOption.flags arguments = .ok given ∧ r.AskedBy given := by
  obtain ⟨scan, hscan, h⟩ := bind_eq_ok h
  cases hw : scan.words with
  | cons w ws =>
    simp only [hw] at h
    cases h
  | nil =>
    simp only [hw] at h
    obtain ⟨draft, hsettle, hfinish⟩ := bind_eq_ok h
    obtain ⟨given, hgiven, hfold⟩ := Scan.foldlM_settings hscan hsettle
    exact ⟨given, hgiven,
      Draft.askedBy_finish (Draft.foldlM_holds Draft.empty_holds hfold) hfinish⟩

end Options

end BoundSql.Command
