import BoundSql.Fetch

/-! What is observed while a statement runs: its report, the recording of its query, the rows. In a
trace where each recording comes behind a report of its own, nothing runs that was not reported. -/

namespace BoundSql

namespace Effect

/-- The query, if the effect is its recording. -/
def recorded? : Effect → Option Query
  | recorded q => some q
  | _ => none

/-- The effect as it is where reports go to a logger. -/
def reportedTo (l : Logger) : Effect → Effect
  | logged e => logged { e with logger := l }
  | x => x

theorem filterMap_recorded?_delivered (rows : List Row) :
    (rows.map delivered).filterMap recorded? = [] := by simp [recorded?]

theorem filterMap_event?_delivered (rows : List Row) :
    (rows.map delivered).filterMap event? = [] := by simp [event?]

theorem map_reportedTo_delivered (l : Logger) (rows : List Row) :
    (rows.map delivered).map (reportedTo l) = rows.map delivered := by
  rw [List.map_map]
  rfl

end Effect

/-- At every moment, what has been recorded had been reported before, each query for itself. -/
def Foretold (effects : List Effect) : Prop :=
  ∀ past, past <+: effects →
    (past.filterMap Effect.recorded?).Sublist ((past.filterMap Effect.event?).map Event.query)

namespace Foretold

theorem nil : Foretold [] := by
  intro past hp
  rw [List.prefix_nil.1 hp]
  exact .slnil

/-- A report, and then at most the recording of its query. -/
theorem logged {e : Event} {after : List Effect}
    (h : (after.filterMap Effect.recorded?).Sublist [e.query]) : Foretold (.logged e :: after) := by
  intro past hp
  rcases List.prefix_cons_iff.1 hp with rfl | ⟨p, rfl, hp⟩
  · exact .slnil
  · have hfirst : [e.query].Sublist (e.query :: (p.filterMap Effect.event?).map Event.query) :=
      (List.nil_sublist _).cons_cons _
    exact ((hp.filterMap Effect.recorded?).sublist.trans h).trans hfirst

theorem append {a b : List Effect} (ha : Foretold a) (hb : Foretold b) : Foretold (a ++ b) := by
  rintro past ⟨future, h⟩
  -- a moment is one of the first part, or one of the second behind the whole first
  rcases List.append_eq_append_iff.1 h with ⟨rest, ha', -⟩ | ⟨more, rfl, hb'⟩
  · exact ha past ⟨rest, ha'.symm⟩
  · simp only [List.filterMap_append, List.map_append]
    exact (ha a List.prefix_rfl).append (hb more ⟨future, hb'.symm⟩)

theorem flatMap {ι : Type} {f : ι → List Effect} {is : List ι} (h : ∀ i, Foretold (f i)) :
    Foretold (is.flatMap f) := by
  induction is with
  | nil => exact nil
  | cons i is ih => exact (h i).append ih

end Foretold

namespace Fetch

/-- Whether the fetch waits for the end of the run. -/
def Waits (f : Fetch) : Prop := f ≠ dropRun ∧ f ≠ dropExecute

instance (f : Fetch) : Decidable f.Waits := inferInstanceAs (Decidable (_ ∧ _))

/-- What is observed of a fetch, in the order in which it happens: nothing of a run that is let go,
the report alone of an execution that is let go. -/
def trace (e : Event) (rows : List Row) : Fetch → List Effect
  | dropRun => []
  | dropExecute => [.logged e]
  | _ => .logged e :: .recorded e.query :: rows.map .delivered

variable (e : Event) (rows : List Row) (f : Fetch)

theorem trace_reportedTo (l : Logger) :
    (f.trace e rows).map (Effect.reportedTo l) = f.trace { e with logger := l } rows := by
  cases f with
  | dropRun | dropExecute => rfl
  | _ => exact congrArg (_ :: _ :: ·) (Effect.map_reportedTo_delivered l rows)

theorem recorded_trace :
    (f.trace e rows).filterMap Effect.recorded? = if f.Waits then [e.query] else [] := by
  cases f with
  | dropRun | dropExecute => rfl
  | _ => exact congrArg (e.query :: ·) (Effect.filterMap_recorded?_delivered rows)

theorem events_trace :
    (f.trace e rows).filterMap Effect.event? = if f = dropRun then [] else [e] := by
  cases f with
  | dropRun | dropExecute => rfl
  | _ => exact congrArg (e :: ·) (Effect.filterMap_event?_delivered rows)

theorem foretold_trace : Foretold (f.trace e rows) := by
  have hrows := Effect.filterMap_recorded?_delivered rows
  cases f with
  | dropRun => exact .nil
  | dropExecute => exact .logged (List.nil_sublist _)
  | _ => exact .logged (congrArg (e.query :: ·) hrows ▸ List.Sublist.refl _)

end Fetch

end BoundSql
