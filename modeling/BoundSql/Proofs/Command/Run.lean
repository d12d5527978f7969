import BoundSql.Command.Report
import BoundSql.Proofs.Command.Arguments
import BoundSql.Proofs.Json

/-! Runs of command lines on any host. Every command of the help is understood, one command prints
the query that another runs, and what a command says of its end agrees with how it ends. -/

namespace BoundSql.Command

/-! Reading command lines. -/

section Reading

variable (name : CommandName) (arguments : List String)

theorem CommandName.find?_text : find? name.text = some name := by cases name <;> decide

/-- The name of a command is no option. -/
theorem CommandName.readArgument_text :
    readArgument CommonOption.flags name.text = .word name.text := by
  cases name <;> rfl

/-- Behind options that are complete, the name of a command takes all that follows. -/
theorem readCommandLine_append {options : List String} {s : Scan CommonOption Common}
    (h : Scan.read CommonOption.flags Common.add {} .none options = .ok s) (hs : s.Complete) :
    readCommandLine (options ++ name.text :: arguments) = (do
      let task ← (name.read arguments).mapError (·.under name.description)
      return (← s.settle Common.add, task)) := by
  rw [readCommandLine, Scan.read_append h hs name.readArgument_text]
  simp only [bind, Except.bind, name.find?_text, hs.separated]
  rfl

theorem readCommandLine_cons : readCommandLine (name.text :: arguments) =
    ((name.read arguments).mapError (·.under name.description)).map fun task => ({}, task) := by
  have hscan : Scan.read CommonOption.flags Common.add {} .none [] =
      .ok { state := {}, pending := .none } := rfl
  have h := readCommandLine_append name arguments hscan ⟨rfl, rfl, nofun⟩
  rw [List.nil_append] at h
  rw [h]
  cases (name.read arguments).mapError (·.under name.description) <;> rfl

/-- Where a query is printed, the same query is run under another name of the command. -/
theorem query_of_sql {options : List String} {s : Scan CommonOption Common}
    (h : Scan.read CommonOption.flags Common.add {} .none options = .ok s) (hs : s.Complete)
    (c : Common) (r : Request) :
    readCommandLine (options ++ "sql" :: arguments) = .ok (c, .sql r) ↔
      readCommandLine (options ++ "query" :: arguments) = .ok (c, .query r) := by
  have hsql := readCommandLine_append .sql arguments h hs
  have hquery := readCommandLine_append .query arguments h hs
  simp only [CommandName.text, CommandName.read] at hsql hquery
  rw [hsql, hquery]
  cases Request.ofArguments arguments with
  | error halt => exact ⟨nofun, nofun⟩
  | ok r' =>
    cases s.settle Common.add with
    | error halt => exact ⟨nofun, nofun⟩
    | ok c' =>
      constructor <;>
      · intro h
        cases h
        rfl

/-- The help of a command is had in two ways. -/
theorem help_of_command :
    readCommandLine ["help", name.text] = .error (.answer name.description.text) ∧
    (name ≠ .help →
      readCommandLine [name.text, "--help"] = .error (.answer name.description.text)) := by
  refine ⟨?_, fun h => ?_⟩
  · have hhelp := readCommandLine_cons .help [name.text]
    simp only [CommandName.read, helpOn, name.find?_text] at hhelp
    exact hhelp
  · rw [readCommandLine_cons]
    cases name with
    | help => exact absurd rfl h
    | query | sql | exec => rfl

/-- Any statement can be given behind a separator, and one that is no option also without. -/
theorem readStatement_eq_ok (statement : String) :
    readStatement ["--", statement] = .ok statement ∧
    (readArgument [.ofHelp ()] statement = .word statement →
      readStatement [statement] = .ok statement) := by
  refine ⟨rfl, fun h => ?_⟩
  simp only [readStatement, scanStatement, Scan.read, h]
  rfl

end Reading

/-- The query that a command hands to the database. -/
def Task.query? : Task → Option Query
  | query r => some r.query
  | exec statement => some ⟨statement, []⟩
  | sql _ => none

/-- A statement that is given as it is has no values. -/
theorem query_raw (statement : String) :
    Query.of .sqlite (Expr.raw (ν := Empty) statement) = ⟨statement, []⟩ := by
  show (⟨"" ++ statement, []⟩ : Query) = _
  rw [String.empty_append]

/-! How commands end. -/

/-- The line of each row is the only one it has. -/
theorem count_lines (rows : List Row) :
    (String.join (rows.map rowLine)).toList.count '\n' = rows.length := by
  rw [String.toList_join, List.flatMap_map]
  induction rows with
  | nil => rfl
  | cons r rows ih =>
    have hrow : (rowLine r).toList.count '\n' = 1 := by
      have htext : r.json.text.toList.count '\n' = 0 :=
        List.count_eq_zero.2 fun h => (r.json.unbroken_text _ h).1 rfl
      rw [rowLine, String.toList_append, List.count_append, htext]
      rfl
    rw [List.flatMap_cons, List.count_append, hrow, ih, List.length_cons, Nat.add_comm]

/-- A command complains unless it ends well, and it counts as many rows as it has written lines. -/
structure Outcome.Consistent (o : Outcome) : Prop where
  complaint : o.complaint = none ↔ o.status = some 0
  counted : ∀ n, .delivered n ∈ o.notices → o.output.toList.count '\n' = n

namespace Host

variable (host : Host) {config : Sqlite.Config}

theorem consistent_failed (f : Fault) : (host.failed f).Consistent := ⟨⟨nofun, nofun⟩, nofun⟩

/-- Connections for which there is no memory. -/
def Exceeds (host : Host) (config : Sqlite.Config) : Prop :=
  host.refuses config.url = none ∧ config.maxConnections ≠ 0 ∧
    host.grantedBytes < host.slotBytes * config.maxConnections.toNat

theorem not_exceeds_of_prepare (h : host.prepare config = .ok ()) : ¬host.Exceeds config := by
  rintro ⟨hname, hslots, hbytes⟩
  simp [prepare, reserve, hname, hslots, Nat.not_le.2 hbytes] at h

/-- A database that cannot be prepared: there is a complaint, and nothing is noted. -/
theorem outcome_of_prepare {o : Outcome} (h : host.prepare config = .error o) :
    o.notices = [] ∧ o.complaint.isSome ∧ o.status ≠ some 0 ∧
      (o.status = none ↔ host.Exceeds config) := by
  unfold prepare at h
  split at h
  · next f hf =>
    cases h
    refine ⟨rfl, rfl, nofun, nofun, fun hexceeds => ?_⟩
    exact absurd (hf.symm.trans hexceeds.1) (by simp)
  · next hname =>
    simp only [reserve] at h
    split_ifs at h with hslots hbytes
    all_goals cases h
    · exact ⟨rfl, rfl, nofun, nofun, fun hexceeds => absurd hslots hexceeds.2.1⟩
    · exact ⟨rfl, rfl, nofun, fun _ => ⟨hname, hslots, Nat.not_le.1 hbytes⟩, fun _ => rfl⟩

theorem consistent_of_prepare {o : Outcome} (h : host.prepare config = .error o) :
    o.Consistent := by
  obtain ⟨hnotices, hcomplaint, hstatus, -⟩ := host.outcome_of_prepare h
  refine ⟨⟨fun hnone => ?_, fun hzero => absurd hzero hstatus⟩, fun n hn => ?_⟩
  · rw [hnone] at hcomplaint
    cases hcomplaint
  · rw [hnotices] at hn
    cases hn

theorem consistent_answered (q : Query) {after : Nat → List Notice}
    (hafter : ∀ n m, .delivered m ∈ after n → m = n) (response : Response) :
    (host.answered config q after response).Consistent := by
  simp only [answered]
  split
  · refine ⟨⟨fun _ => rfl, fun _ => rfl⟩, fun n hn => ?_⟩
    have hn : .delivered n ∈ after response.delivery.rows.length := by simpa using hn
    rw [hafter _ n hn]
    exact count_lines _
  · exact ⟨⟨nofun, nofun⟩, fun n hn => absurd hn (by simp)⟩

theorem consistent_deliver (q : Query) {after : Nat → List Notice}
    (hafter : ∀ n m, .delivered m ∈ after n → m = n) :
    (host.deliver config q after).Consistent := by
  unfold deliver
  split
  · next h => exact host.consistent_of_prepare h
  · split
    · exact host.consistent_failed _
    · exact host.consistent_answered q hafter _

theorem consistent_perform (config : Sqlite.Config) (t : Task) : (host.perform config t).Consistent := by
  cases t with
  | query r => exact host.consistent_deliver _ fun n m hm => by simpa using hm
  | exec statement => exact host.consistent_deliver _ nofun
  | sql r =>
    simp only [perform]
    split
    · next h => exact host.consistent_of_prepare h
    · exact ⟨⟨fun _ => rfl, fun _ => rfl⟩, nofun⟩

/-- On any host, what a command says of its end agrees with how it ends. -/
theorem consistent_run (arguments : List String) : (host.run arguments).Consistent := by
  unfold run
  split
  · exact ⟨⟨nofun, nofun⟩, nofun⟩
  · exact ⟨⟨fun _ => rfl, fun _ => rfl⟩, nofun⟩
  · exact ⟨⟨fun _ => rfl, fun _ => rfl⟩, nofun⟩
  · next c t _ =>
    obtain ⟨hcomplaint, hcounted⟩ := host.consistent_perform c.config t
    exact ⟨hcomplaint, fun n hn => hcounted n (List.mem_of_mem_filter hn)⟩

/-- An engine that knows one column: each of its rows is written on a line. -/
example :
    let rows := [[Sqlite.Datum.integer 1], [.text "\n"]]
    let host : Host := { sealed with
      connect := fun _ => .ok fun _ _ => { results := [⟨[{ name := "a" }], rows⟩] } }
    (host.run ["query", "-t", "t"]).output = "\x7b\"a\":1\x7d\n\x7b\"a\":\"\\n\"\x7d\n" ∧
    (host.run ["query", "-t", "t"]).notices =
      [.connected { url := "sqlite::memory:" }, .delivered 2] := by
  exact ⟨by decide +kernel, by decide +kernel⟩

/-- Whatever is asked for, nothing is done where the database cannot be prepared. -/
theorem perform_of_prepare {o : Outcome} (h : host.prepare config = .error o) (t : Task) :
    host.perform config t = o := by
  cases t <;> simp only [perform, deliver, h]

theorem isSome_status_perform (h : host.prepare config = .ok ()) (t : Task) :
    (host.perform config t).status.isSome := by
  have hdeliver (q : Query) (after : Nat → List Notice) :
      (host.deliver config q after).status.isSome := by
    simp only [deliver, h]
    split
    · rfl
    · simp only [answered]
      split <;> rfl
  cases t with
  | query r => exact hdeliver _ _
  | exec statement => exact hdeliver _ _
  | sql r => simp only [perform, h, Option.isSome_some]

theorem status_perform_eq_none_iff (t : Task) :
    (host.perform config t).status = none ↔ host.Exceeds config := by
  cases h : host.prepare config with
  | ok _ =>
    have hsome := host.isSome_status_perform h t
    exact ⟨fun hnone => absurd (hnone ▸ hsome) (by decide),
      fun hexceeds => absurd hexceeds (host.not_exceeds_of_prepare h)⟩
  | error o =>
    rw [host.perform_of_prepare h]
    exact (host.outcome_of_prepare h).2.2.2

/-- A command breaks off exactly when there is no memory for the connections it may open. -/
theorem status_run_eq_none_iff (arguments : List String) :
    (host.run arguments).status = none ↔
      ∃ c t, readCommandLine arguments = .ok (c, t) ∧ host.Exceeds c.config := by
  unfold run
  split
  case h_4 c t h =>
    refine (host.status_perform_eq_none_iff t).trans ⟨fun hexceeds => ⟨c, t, h, hexceeds⟩, ?_⟩
    rintro ⟨c', t', h', hexceeds⟩
    cases h.symm.trans h'
    exact hexceeds
  all_goals
    next h =>
    refine ⟨nofun, ?_⟩
    rintro ⟨c', t', h', -⟩
    cases h.symm.trans h'

example : (sealed.run ["--max-connections", "4294967295", "sql", "-t", "t"]).status = none :=
  (sealed.status_run_eq_none_iff _).2 ⟨_, _, rfl, rfl, by decide, by decide⟩

/-- A query is printed without a connection. -/
theorem run_sql_connect {arguments : List String} {c : Common} {r : Request}
    (h : readCommandLine arguments = .ok (c, .sql r))
    (connect : Sqlite.Config → Except Fault Connection) :
    { host with connect }.run arguments = host.run arguments := by
  simp only [run, h]
  rfl

/-- What comes of running a query depends on no more of a database than its answer to the query that
is printed. -/
theorem perform_query_congr {connection connection' : Connection} (r : Request)
    (h : connection.ask r.query = connection'.ask r.query) :
    { host with connect := fun _ => .ok connection }.perform config (.query r) =
      { host with connect := fun _ => .ok connection' }.perform config (.query r) := by
  simp only [perform, deliver, h]
  rfl

theorem executing_mem_answered_iff {q : Query} {after : Nat → List Notice} {e : Event}
    (hafter : ∀ n, .executing e ∉ after n) (response : Response) :
    .executing e ∈ (host.answered config q after response).notices ↔
      e = ({ label := config.loggerLabel } : Logger).report q := by
  simp only [answered]
  split <;> simp [hafter]

/-- A query that is run is noted if details are asked for, and no other is. -/
theorem executing_mem_run_iff {arguments : List String} {c : Common} {t : Task} {q : Query}
    {connection : Connection} (h : readCommandLine arguments = .ok (c, t)) (hq : t.query? = some q)
    (hprepare : host.prepare c.config = .ok ()) (hconnect : host.connect c.config = .ok connection)
    (e : Event) :
    .executing e ∈ (host.run arguments).notices ↔
      c.verbose = true ∧ e = ({ label := c.config.loggerLabel } : Logger).report q := by
  have hperform : .executing e ∈ (host.perform c.config t).notices ↔
      e = ({ label := c.config.loggerLabel } : Logger).report q := by
    cases t with
    | query r =>
      cases hq
      simp only [perform, deliver, hprepare, hconnect]
      exact host.executing_mem_answered_iff (by simp) _
    | exec statement =>
      cases hq
      simp only [perform, deliver, hprepare, hconnect, query_raw]
      exact host.executing_mem_answered_iff (by simp) _
    | sql r => cases hq
  have hrun : (host.run arguments).notices =
      (host.perform c.config t).notices.filter (·.isShown c.verbose) := by
    simp only [run, h]
  have hshown (he : e = ({ label := c.config.loggerLabel } : Logger).report q) :
      (Notice.executing e).isShown c.verbose = c.verbose := by
    rw [he]
    rfl
  rw [hrun, List.mem_filter, hperform]
  exact ⟨fun ⟨he, hv⟩ => ⟨hshown he ▸ hv, he⟩, fun ⟨hv, he⟩ => ⟨he, (hshown he).trans hv⟩⟩

end Host

end BoundSql.Command
