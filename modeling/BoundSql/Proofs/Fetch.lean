import BoundSql.Proofs.Database

/-! The ways to ask for rows, against the rows that arrive. Reading a row is given an effect in a
monad that is left open, and each way is shown to have the effect for certain rows, and then to
answer: in the identity this is its answer, and with a list to write in the rows it has read. -/

namespace BoundSql

variable {m : Type → Type} [Monad m] {α : Type}

/-- Reads a row once it has been noted. -/
def Decoder.noting (note : Row → m Unit) (decode : Row → Except DecodeError α) : Decoder m α :=
  fun r => do
    note r
    return decode r

/-- Reads rows and keeps a list of those that were read. -/
def Decoder.traced (decode : Row → Except DecodeError α) : Decoder (StateM (List Row)) α :=
  .noting (fun r => modify (· ++ [r])) decode

namespace Handler

variable [LawfulMonad m] (note : Row → m Unit) (decode : Row → Except DecodeError α)

theorem foldlM_collect (rows kept : List Row) :
    rows.foldlM collect kept = (pure (kept ++ rows) : m (List Row)) := by
  induction rows generalizing kept with
  | nil => simp
  | cons r rows ih => simp [collect, ih]

theorem foldlM_keepFirst_some (rows : List Row) (r : Row) :
    rows.foldlM keepFirst (some r) = (pure (some r) : m (Option Row)) := by
  induction rows with
  | nil => rfl
  | cons _ rows ih => simp [keepFirst, ih]

theorem foldlM_keepFirst (rows : List Row) :
    rows.foldlM keepFirst none = (pure rows.head? : m (Option Row)) := by
  cases rows with
  | nil => rfl
  | cons r rows => simp [keepFirst, foldlM_keepFirst_some]

theorem foldlM_decodeEach (rows : List Row) (kept : List (Except Error α)) :
    rows.foldlM (decodeEach (.noting note decode)) kept = (do
      forM rows note
      return kept ++ rows.map fun r => (decode r).mapError .decode) := by
  induction rows generalizing kept with
  | nil => simp
  | cons r rows ih => simp [decodeEach, Decoder.noting, ih]

theorem foldlM_decodeAll_error (rows : List Row) (e : DecodeError) :
    rows.foldlM (decodeAll (.noting note decode)) (.error e) =
      (pure (.error e) : m (Except DecodeError (List α))) := by
  induction rows with
  | nil => rfl
  | cons _ rows ih => simp [decodeAll, ih]

theorem foldlM_decodeAll_ok {rows : List Row} {xs : List α} (h : rows.map decode = xs.map .ok)
    (kept : List α) :
    rows.foldlM (decodeAll (.noting note decode)) (.ok kept) = (do
      forM rows note
      return .ok (kept ++ xs)) := by
  induction rows generalizing kept xs with
  | nil =>
    have hxs : xs = [] := by simpa using h.symm
    simp [hxs]
  | cons r rows ih =>
    cases xs with
    | nil => cases h
    | cons x xs =>
      obtain ⟨hr, hrows⟩ := List.cons.inj h
      simp [decodeAll, Decoder.noting, hr, Except.map, ih hrows]

theorem foldlM_decodeAll_bad {good rest : List Row} {bad : Row} {xs : List α} {e : DecodeError}
    (hgood : good.map decode = xs.map .ok) (hbad : decode bad = .error e) :
    (good ++ bad :: rest).foldlM (decodeAll (.noting note decode)) (.ok []) = (do
      forM (good ++ [bad]) note
      return .error e) := by
  simp [foldlM_decodeAll_ok note decode hgood, decodeAll, Decoder.noting, hbad, Except.map,
    foldlM_decodeAll_error note decode]

end Handler

namespace Delivery

variable [LawfulMonad m] (note : Row → m Unit) (decode : Row → Except DecodeError α)
  (d : Delivery)

theorem all_eq : d.all = (pure (d.outcome.map fun _ => d.rows) : m _) := by
  simp [all, handled, Handler.foldlM_collect, unlessFailed]

theorem first_eq : d.first = (pure (d.outcome.map fun _ => d.rows.head?) : m _) := by
  simp [first, handled, Handler.foldlM_keepFirst, unlessFailed]

theorem decodings_eq :
    d.decodings (.noting note decode) = (do
      forM d.rows note
      return d.rows.map fun r => (decode r).mapError .decode) := by
  rw [decodings, handled, Handler.foldlM_decodeEach]
  rfl

theorem firstDecoded_of_error {e : Error} (h : d.outcome = .error e) :
    d.firstDecoded (.noting note decode) = pure (.error e) := by
  simp [firstDecoded, first_eq, h, Except.map]

theorem firstDecoded_of_ok (h : d.outcome = .ok ()) :
    d.firstDecoded (.noting note decode) = match d.rows.head? with
      | none => pure (.ok none)
      | some r => do
        note r
        return ((decode r).map some).mapError .decode := by
  cases hr : d.rows.head? with
  | none => simp [firstDecoded, first_eq, h, hr, Except.map]
  | some r =>
    cases hd : decode r <;>
    · simp [firstDecoded, first_eq, h, hr, hd, Decoder.noting, Except.map]
      rfl

theorem allDecoded_of_ok {xs : List α} (h : d.rows.map decode = xs.map .ok) :
    d.allDecoded (.noting note decode) = (do
      forM d.rows note
      return d.outcome.map fun _ => xs) := by
  simp [allDecoded, handled, Handler.foldlM_decodeAll_ok note decode h, unlessFailed]

theorem allDecoded_of_bad {good rest : List Row} {bad : Row} {xs : List α} {e : DecodeError}
    (h : d.rows = good ++ bad :: rest) (hgood : good.map decode = xs.map .ok)
    (hbad : decode bad = .error e) :
    d.allDecoded (.noting note decode) = (do
      forM (good ++ [bad]) note
      return .error (.decode e)) := by
  rw [allDecoded, handled, h, Handler.foldlM_decodeAll_bad note decode hgood hbad]
  simp

end Delivery

/-- Either all rows can be read, or there is a first that cannot. -/
theorem Decoder.all_or_first_bad (decode : Row → Except DecodeError α) (rows : List Row) :
    (∃ xs : List α, rows.map decode = xs.map .ok) ∨
    ∃ (good : List Row) (xs : List α) (bad : Row) (rest : List Row) (e : DecodeError),
      rows = good ++ bad :: rest ∧ good.map decode = xs.map .ok ∧ decode bad = .error e := by
  induction rows with
  | nil => exact .inl ⟨[], rfl⟩
  | cons r rows ih =>
    cases hr : decode r with
    | error e => exact .inr ⟨[], [], r, rows, e, rfl, rfl, hr⟩
    | ok x =>
      rcases ih with ⟨xs, h⟩ | ⟨good, xs, bad, rest, e, rfl, hgood, hbad⟩
      · exact .inl ⟨x :: xs, by simp [hr, h]⟩
      · exact .inr ⟨r :: good, x :: xs, bad, rest, e, rfl, by simp [hr, hgood], hbad⟩

namespace Fetch

/-- Whatever reading a row brings about: it happens for these rows in their order, each once, and
then the answer is given. -/
def Reads (decode : Row → Except DecodeError α) (d : Delivery) (f : Fetch) (rows : List Row)
    (a : Answer α) : Prop :=
  ∀ (m : Type → Type) [Monad m] [LawfulMonad m] (note : Row → m Unit),
    f.take (.noting note decode) d = (do forM rows note; return a)

/-- The answer, and the rows that are read for it. -/
def observed (decode : Row → Except DecodeError α) (d : Delivery) (f : Fetch) :
    Answer α × List Row :=
  Id.run ((f.take (.traced decode) d).run [])

variable {decode : Row → Except DecodeError α} {d : Delivery} {f : Fetch} {rows : List Row}
  {a : Answer α}

theorem run_forM_note (rows seen : List Row) :
    (forM rows fun r => (modify (· ++ [r]) : StateM (List Row) Unit)).run seen =
      pure ((), seen ++ rows) := by
  induction rows generalizing seen with
  | nil => simp
  | cons r rows ih => simp [ih]

theorem Reads.observed_eq (h : f.Reads decode d rows a) : f.observed decode d = (a, rows) := by
  rw [observed, Decoder.traced, h]
  simp [run_forM_note]

theorem Reads.answer_eq (h : f.Reads decode d rows a) : f.answer decode d = a := by
  -- a decoder without effects is one that notes nothing
  have hid := h Id fun _ => pure ()
  show Id.run (f.take (.noting (fun _ => pure ()) decode) d) = a
  rw [hid]
  simp

section Reads

variable (decode d)

theorem reads_run : run.Reads decode d [] (.delivery d) := by
  intro m _ _ note
  simp [take]

theorem reads_execute : execute.Reads decode d [] (.delivery d) := by
  intro m _ _ note
  simp [take]

theorem reads_dropRun : dropRun.Reads decode d [] .dropped := by
  intro m _ _ note
  simp [take]

theorem reads_dropExecute : dropExecute.Reads decode d [] .dropped := by
  intro m _ _ note
  simp [take]

theorem reads_all : all.Reads decode d [] (.rows (d.outcome.map fun _ => d.rows)) := by
  intro m _ _ note
  simp [take, d.all_eq]

theorem reads_first : first.Reads decode d [] (.row (d.outcome.map fun _ => d.rows.head?)) := by
  intro m _ _ note
  simp [take, d.first_eq]

theorem reads_runDecoding : runDecoding.Reads decode d d.rows
    (.decodings (d.rows.map fun r => (decode r).mapError .decode) d.outcome) := by
  intro m _ _ note
  simp [take, d.decodings_eq]

theorem reads_firstDecoding_of_error {e : Error} (h : d.outcome = .error e) :
    firstDecoding.Reads decode d [] (.decoded (.error e)) := by
  intro m _ _ note
  simp [take, d.firstDecoded_of_error note decode h]

theorem reads_firstDecoding_of_ok (h : d.outcome = .ok ()) :
    firstDecoding.Reads decode d d.rows.head?.toList (.decoded (match d.rows.head? with
      | none => .ok none
      | some r => ((decode r).map some).mapError .decode)) := by
  intro m _ _ note
  rw [take, d.firstDecoded_of_ok note decode h]
  cases d.rows.head? <;> simp

theorem reads_allDecoding_of_ok {xs : List α} (h : d.rows.map decode = xs.map .ok) :
    allDecoding.Reads decode d d.rows (.allDecoded (d.outcome.map fun _ => xs)) := by
  intro m _ _ note
  simp [take, d.allDecoded_of_ok note decode h]

theorem reads_allDecoding_of_bad {good rest : List Row} {bad : Row} {xs : List α} {e : DecodeError}
    (h : d.rows = good ++ bad :: rest) (hgood : good.map decode = xs.map .ok)
    (hbad : decode bad = .error e) :
    allDecoding.Reads decode d (good ++ [bad]) (.allDecoded (.error (.decode e))) := by
  intro m _ _ note
  rw [take, d.allDecoded_of_bad note decode h hgood hbad]
  simp

/-- Every fetch reads some of the rows and answers; how rows are read decides nothing else. -/
theorem exists_reads (f : Fetch) : ∃ rows a, f.Reads decode d rows a := by
  cases f with
  | run => exact ⟨_, _, reads_run decode d⟩
  | execute => exact ⟨_, _, reads_execute decode d⟩
  | all => exact ⟨_, _, reads_all decode d⟩
  | first => exact ⟨_, _, reads_first decode d⟩
  | runDecoding => exact ⟨_, _, reads_runDecoding decode d⟩
  | firstDecoding =>
    cases h : d.outcome with
    | error e => exact ⟨_, _, reads_firstDecoding_of_error decode d h⟩
    | ok => exact ⟨_, _, reads_firstDecoding_of_ok decode d h⟩
  | allDecoding =>
    rcases Decoder.all_or_first_bad decode d.rows with ⟨xs, h⟩ | ⟨_, _, _, _, _, h, hgood, hbad⟩
    · exact ⟨_, _, reads_allDecoding_of_ok decode d h⟩
    · exact ⟨_, _, reads_allDecoding_of_bad decode d h hgood hbad⟩
  | dropRun => exact ⟨_, _, reads_dropRun decode d⟩
  | dropExecute => exact ⟨_, _, reads_dropExecute decode d⟩

theorem answer_eq_observed (f : Fetch) : f.answer decode d = (f.observed decode d).1 := by
  obtain ⟨rows, a, h⟩ := f.exists_reads decode d
  rw [h.answer_eq, h.observed_eq]

end Reads

end Fetch

/-- What each way to ask for rows answers, against the rows that a run delivers and its end; and the
rows that are read for it. -/
theorem Database.fetches_agree_with_run {ν : Type} [Writable ν] (db : Database)
    (statement : Expr ν) (decode : Row → Except DecodeError α) :
    ∃ d : Delivery,
      (db.fetch decode .run statement).result = .delivery d ∧
      (∀ e, d.outcome = .error e → ∃ text, e = .driver text) ∧
      (∀ f, (db.fetch decode f statement).result = (f.observed decode d).1) ∧
      Fetch.all.observed decode d = (.rows (d.outcome.map fun _ => d.rows), []) ∧
      Fetch.first.observed decode d = (.row (d.outcome.map fun _ => d.rows.head?), []) ∧
      Fetch.runDecoding.observed decode d =
        (.decodings (d.rows.map fun r => (decode r).mapError .decode) d.outcome, d.rows) ∧
      (∀ e, d.outcome = .error e →
        Fetch.firstDecoding.observed decode d = (.decoded (.error e), [])) ∧
      (d.outcome = .ok () → Fetch.firstDecoding.observed decode d =
        (.decoded (match d.rows.head? with
          | none => .ok none
          | some r => ((decode r).map some).mapError .decode), d.rows.head?.toList)) ∧
      (∀ (good : List Row) (xs : List α) (bad : Row) (rest : List Row) (e : DecodeError),
        d.rows = good ++ bad :: rest → good.map decode = xs.map .ok → decode bad = .error e →
        Fetch.allDecoding.observed decode d = (.allDecoded (.error (.decode e)), good ++ [bad])) ∧
      ∀ xs : List α, d.rows.map decode = xs.map .ok → Fetch.allDecoding.observed decode d =
        (.allDecoded (d.outcome.map fun _ => xs), d.rows) := by
  let d := db.source.delivery
  have hrun : (db.fetch decode .run statement).result = .delivery d :=
    congrArg Run.result (db.fetch_eq decode .run statement)
  refine ⟨d, hrun, ?_, ?_, (Fetch.reads_all decode d).observed_eq,
    (Fetch.reads_first decode d).observed_eq, (Fetch.reads_runDecoding decode d).observed_eq,
    ?_, ?_, ?_, ?_⟩
  · intro e h
    rcases db.source.outcome_delivery with ho | ho
    · cases ho.symm.trans h
    · cases ho.symm.trans h
      exact ⟨_, rfl⟩
  · intro f
    rw [db.fetch_eq, Fetch.answer_eq_observed]
  · intro e h
    exact (Fetch.reads_firstDecoding_of_error decode d h).observed_eq
  · intro h
    exact (Fetch.reads_firstDecoding_of_ok decode d h).observed_eq
  · intro good xs bad rest e h hgood hbad
    exact (Fetch.reads_allDecoding_of_bad decode d h hgood hbad).observed_eq
  · intro xs h
    exact (Fetch.reads_allDecoding_of_ok decode d h).observed_eq

/-- The second row is refused, and the run fails behind it. -/
theorem Database.refused_row_counts_before_failure :
    let rows : List Row := [⟨[("id", .int 1)]⟩, ⟨[("id", .text "2")]⟩, ⟨[("id", .int 3)]⟩]
    let db : Database := .logging (.recording
      { dialect := .generic, rows := rows, failAfter := some 2 }) { label := "audit" }
    let decode (r : Row) := r.decode (.base .int) "id"
    let statement : Expr Empty := .raw "SELECT 1"
    (db.fetch decode .all statement).result = .rows (.error Recording.failure) ∧
    (db.fetch decode .allDecoding statement).result =
      .allDecoded (.error (.decode (.typeMismatch "id" "int" "text"))) := by
  intro rows db decode statement
  obtain ⟨d, hrun, -, hfetch, hall, -, -, -, -, hbad, -⟩ :=
    db.fetches_agree_with_run statement decode
  have hd : d = ⟨rows.take 2, .error Recording.failure⟩ := (Answer.delivery.inj hrun).symm
  subst hd
  refine ⟨?_, ?_⟩
  · rw [hfetch, hall]; rfl
  · rw [hfetch, hbad (rows.take 1) [1] ⟨[("id", .text "2")]⟩ [] _ rfl rfl rfl]
    rfl

end BoundSql
