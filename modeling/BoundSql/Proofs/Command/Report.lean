import BoundSql.Command.Report
import BoundSql.Logger
import BoundSql.Proofs.Value.Listing

/-! What logs and reports say about the values of a query. A value never breaks the line that it is
listed on, whatever it holds, and different lists of values that are no floats have different texts,
both in a log and in the lines of a report. -/

namespace BoundSql.Command

/-- The lines of a report that belong to values. -/
def valueLines (vs : List Value) : List String :=
  vs.mapIdx fun i v => "  [" ++ toString (i + 1) ++ "] " ++ v.listing

/-- Lines, each with its end. -/
def linesText (lines : List String) : String := String.join (lines.map (· ++ "\n"))

theorem linesText_valueLines (vs : List Value) :
    linesText (valueLines vs) = String.join (vs.mapIdx fun i v => valueLine (i + 1) v) := by
  rw [linesText, valueLines, List.mapIdx_eq_zipIdx_map, List.mapIdx_eq_zipIdx_map, List.map_map]
  rfl

/-- A report is the text of the query and then the lines of its values. -/
theorem report_eq (q : Query) : report q = q.sql ++ "\n" ++ linesText (valueLines q.binds) := by
  rw [linesText_valueLines, report]

theorem printable_of_mem_valueLines {vs : List Value} {line : String} (h : line ∈ valueLines vs) :
    Printable line.toList := by
  obtain ⟨i, hi, rfl⟩ := List.mem_mapIdx.1 h
  have hnumber : Printable (toString (i + 1)).toList := printable_toString_int (i + 1 : Nat)
  simp only [String.toList_append]
  exact (((printable_of_ascii (by decide)).append hnumber).append
    (printable_of_ascii (by decide))).append vs[i].printable_listing

/-- The line of a value that is no float tells its position and the value. -/
theorem delimited_valueLine : Delimited {p : Nat × Value | p.2.Exact} Anything
    fun p => (valueLine p.1 p.2).toList := by
  have hnumber := delimited_toString_nat.closed "] ".toList fun r c hc => by cases hc; rfl
  have hvalue := Value.delimited_listing.closed ['\n'] fun _ => trivial
  have hline := (hnumber.pair hvalue fun _ _ _ => trivial).behind "  [".toList
  have htext : (fun p : Nat × Value => (valueLine p.1 p.2).toList) = fun p => "  [".toList ++
      ((toString p.1).toList ++ "] ".toList ++ (p.2.listing.toList ++ ['\n'])) := by
    funext p
    simp only [valueLine, String.toList_append, List.append_assoc]
    rfl
  rw [htext]
  exact hline.mono fun p hp => ⟨trivial, hp⟩

theorem valueLine_ne_nil (i : Nat) (v : Value) (r : List Char) :
    (valueLine i v).toList ++ r ≠ [] := by
  intro h
  have hend : (valueLine i v).toList = [] := (List.append_eq_nil_iff.1 h).1
  rw [valueLine, String.toList_append] at hend
  exact absurd (List.append_eq_nil_iff.1 hend).2 (by decide)

/-- Values with their positions. -/
def numbered (vs : List Value) : List (Nat × Value) := vs.zipIdx.map fun p => (p.2 + 1, p.1)

theorem map_snd_numbered (vs : List Value) : (numbered vs).map Prod.snd = vs := by
  rw [numbered, List.map_map]
  exact List.zipIdx_map_fst 0 vs

theorem toList_linesText_valueLines (vs : List Value) : (linesText (valueLines vs)).toList =
    (numbered vs).flatMap fun p => (valueLine p.1 p.2).toList := by
  rw [linesText_valueLines, String.toList_join, List.mapIdx_eq_zipIdx_map, numbered,
    List.flatMap_map, List.flatMap_map]

theorem exact_of_mem_numbered {vs : List Value} (h : ∀ v ∈ vs, v.Exact) :
    ∀ p ∈ numbered vs, p.2.Exact := fun p hp =>
  h p.2 (map_snd_numbered vs ▸ List.mem_map_of_mem hp)

/-- Different lists of values that are no floats have different lines. -/
theorem injOn_linesText : Set.InjOn (fun vs => linesText (valueLines vs)) {vs | ∀ v ∈ vs, v.Exact} := by
  have hlines : Delimited {ps | ∀ p ∈ ps, p ∈ {p : Nat × Value | p.2.Exact}} (fun r => r = [])
      (List.flatMap fun p => (valueLine p.1 p.2).toList) :=
    delimited_valueLine.flatMap (fun _ _ _ => trivial) (fun _ _ => trivial) fun p _ =>
      valueLine_ne_nil p.1 p.2
  intro vs hvs ws hws h
  have htext := congrArg String.toList h
  simp only [toList_linesText_valueLines] at htext
  have hsame := hlines.injOn rfl (exact_of_mem_numbered hvs) (exact_of_mem_numbered hws) htext
  rw [← map_snd_numbered vs, hsame, map_snd_numbered]

/-- A text on a line of its own. -/
def OnOneLine (s : String) : Prop := '\n' ∉ s.toList ∧ '\r' ∉ s.toList

/-- In a log, and in the lines of a report, values stay on their lines, and a list of values that are
no floats has a text that no other list of such values has. -/
theorem values_are_reported_faithfully :
    (∀ (l : Logger) (q : Query), OnOneLine (l.report q).bindsText) ∧
    (∀ q : Query, report q = q.sql ++ "\n" ++ linesText (valueLines q.binds) ∧
      ∀ line ∈ valueLines q.binds, OnOneLine line) ∧
    ∀ q q' : Query, (∀ v ∈ q.binds, v.Exact) → (∀ v ∈ q'.binds, v.Exact) →
      (∀ l l' : Logger, (l.report q).bindsText = (l'.report q').bindsText → q.binds = q'.binds) ∧
      (linesText (valueLines q.binds) = linesText (valueLines q'.binds) → q.binds = q'.binds) := by
  refine ⟨fun l q => (printable_listing q.binds).on_one_line,
    fun q => ⟨report_eq q, fun line hline => (printable_of_mem_valueLines hline).on_one_line⟩,
    fun q q' hq hq' => ⟨fun l l' h => ?_, fun h => injOn_linesText hq hq' h⟩⟩
  exact delimited_listings.injOn trivial hq hq' (congrArg String.toList h)

/-- A text that imitates the end of its token, further values and a line of a report. -/
theorem imitations_are_reported_faithfully :
    let q : Query := ⟨"?", [.text "\"), Null\n[2"]⟩
    let q' : Query := ⟨"?, ?", [.text "", .null]⟩
    let l : Logger := { label := "app" }
    (∀ v ∈ q.binds, v.Exact) ∧ (∀ v ∈ q'.binds, v.Exact) ∧
      (l.report q).bindsText ≠ (l.report q').bindsText ∧
      linesText (valueLines q.binds) ≠ linesText (valueLines q'.binds) := by
  intro q q' l
  have hq : ∀ v ∈ q.binds, v.Exact := by simp [q, Value.Exact]
  have hq' : ∀ v ∈ q'.binds, v.Exact := by simp [q', Value.Exact]
  have hne : q.binds ≠ q'.binds := by decide
  obtain ⟨hlogs, hlines⟩ := values_are_reported_faithfully.2.2 q q' hq hq'
  exact ⟨hq, hq', fun h => hne (hlogs l l h), fun h => hne (hlines h)⟩

end BoundSql.Command
