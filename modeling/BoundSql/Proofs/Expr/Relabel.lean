import BoundSql.Proofs.Piece

/-! Trees of one shape. Two trees differ in their values only if they are equal once all values are
replaced by one, and in their names and string literals only if they are equal once these are. -/

namespace BoundSql

/-- What names, string literals and values are replaced by. -/
structure Relabelling where
  name : String → String := id
  string : String → String := id
  value : Value → Value := id

namespace Relabelling

/-- All values are replaced by one. -/
def forgetValues : Relabelling := { value := fun _ => .null }

/-- All names are replaced by one, and all string literals. -/
def forgetNames : Relabelling := { name := fun _ => "", string := fun _ => "" }

/-- No name becomes the star that stands for all columns. -/
def Starless (f : Relabelling) : Prop := ∀ n, n ≠ "*" → f.name n ≠ "*"

@[simp] theorem name_forgetValues (n : String) : forgetValues.name n = n := rfl

@[simp] theorem value_forgetValues (v : Value) : forgetValues.value v = .null := rfl

theorem forgetValues_starless : forgetValues.Starless := fun _ h => h

theorem forgetNames_starless : forgetNames.Starless := fun _ _ => by simp [forgetNames]

end Relabelling

variable (f : Relabelling)

def Literal.relabel : Literal → Literal
  | .string s => .string (f.string s)
  | l => l

namespace Script

def relabel : Script → Script
  | name s => name (f.name s)
  | string s => string (f.string s)
  | bind v => bind (f.value v)
  | append a b => a.relabel ++ b.relabel
  | returned a => returned a.relabel
  | spaced a => spaced a.relabel
  | s => s

@[simp] theorem relabel_append (a b : Script) :
    (a ++ b).relabel f = a.relabel f ++ b.relabel f := rfl

@[simp] theorem relabel_nothing : nothing.relabel f = nothing := rfl

@[simp] theorem relabel_fixed (s : String) : (fixed s).relabel f = fixed s := rfl

@[simp] theorem relabel_verbatim (s : String) : (verbatim s).relabel f = verbatim s := rfl

@[simp] theorem relabel_joined (separator : Script) (ss : List Script) :
    (joined separator ss).relabel f = joined (separator.relabel f) (ss.map (relabel f)) := by
  induction ss with
  | nil => rfl
  | cons s ss ih =>
    cases ss with
    | nil => rfl
    | cons t ss => simp only [joined, relabel_append, ih, List.map_cons]

@[simp] theorem relabel_commaSeparated (ss : List Script) :
    (commaSeparated ss).relabel f = commaSeparated (ss.map (relabel f)) := relabel_joined _ _ _

@[simp] theorem relabel_parenthesized (s : Script) :
    (parenthesized s).relabel f = parenthesized (s.relabel f) := rfl

@[simp] theorem relabel_optional (keyword : String) (o : Option Script) :
    (optional keyword o).relabel f = optional keyword (o.map (relabel f)) := by
  cases o <;> rfl

@[simp] theorem relabel_clause (keyword : String) (ss : List Script) :
    (clause keyword ss).relabel f = clause keyword (ss.map (relabel f)) := by
  cases ss with
  | nil => rfl
  | cons s ss => simp [clause]

@[simp] theorem relabel_returning (ss : List Script) :
    (returning ss).relabel f = returning (ss.map (relabel f)) := by
  simp [returning, relabel]

end Script

theorem Segment.relabel_script (g : Segment Script) :
    g.script.relabel f = (g.map (Script.relabel f)).script := by
  cases g with
  | flag word present => cases present <;> rfl
  | joins ss => cases ss <;> simp [script, map]
  | count keyword n => cases n <;> rfl
  | locking o => cases o <;> rfl
  | _ => simp [script, map]

theorem Select.relabel_clausesScript (s : Select Script) (cs : List Clause) :
    (s.clausesScript cs).relabel f = (s.map (Script.relabel f)).clausesScript cs := by
  induction cs with
  | nil => rfl
  | cons c cs ih => simp [clausesScript, segment_map, Segment.relabel_script, ih]

theorem Select.relabel_script (s : Select Script) :
    s.script.relabel f = (s.map (Script.relabel f)).script := by
  simp [script, relabel_clausesScript]

theorem Insert.relabel_script (s : Insert Script) :
    s.script.relabel f = (s.map (Script.relabel f)).script := by
  have hc (ss : List Script) :
      (columnsScript ss).relabel f = columnsScript (ss.map (Script.relabel f)) := by
    cases ss <;> simp [columnsScript]
  simp [script, map, hc, Function.comp_def, rowScript]

theorem Update.relabel_script (s : Update Script) :
    s.script.relabel f = (s.map (Script.relabel f)).script := by
  simp [script, map]

theorem Delete.relabel_script (s : Delete Script) :
    s.script.relabel f = (s.map (Script.relabel f)).script := by
  simp [script, map]

namespace Expr

/-- A tree of the same shape with other labels. -/
def relabelling : Algebra Empty (Expr Empty) :=
  { rebuild with
    identifier := fun n => identifier (f.name n)
    column := fun t n => column (t.map f.name) (if n = "*" then "*" else f.name n)
    aliased := fun x n => aliased x (f.name n)
    literal := fun l => literal (l.relabel f)
    bind := fun v => bind (f.value v)
    binds := fun vs => binds (vs.map f.value) }

def relabel (e : Expr Empty) : Expr Empty := e.fold (relabelling f)

@[simp] theorem relabel_identifier (n : String) :
    (identifier n).relabel f = identifier (f.name n) := rfl

@[simp] theorem relabel_bind (v : Value) : (bind v).relabel f = bind (f.value v) := rfl

@[simp] theorem relabel_binary (l : Expr Empty) (op : Operator) (r : Expr Empty) :
    (binary l op r).relabel f = binary (l.relabel f) op (r.relabel f) := rfl

@[simp] theorem relabel_order (e : Expr Empty) (direction : Direction) :
    (order e direction).relabel f = order (e.relabel f) direction := rfl

@[simp] theorem relabel_join (method : JoinMethod) (table : Expr Empty)
    (condition : Option (Expr Empty)) :
    (join method table condition).relabel f =
      join method (table.relabel f) (condition.map (relabel f)) := fold_join _ _ _ _

@[simp] theorem relabel_select (s : Select (Expr Empty)) :
    (select s).relabel f = select (s.map (relabel f)) := fold_select _ _

@[simp] theorem relabel_insert (s : Insert (Expr Empty)) :
    (insert s).relabel f = insert (s.map (relabel f)) := fold_insert _ _

@[simp] theorem relabel_update (s : Update (Expr Empty)) :
    (update s).relabel f = update (s.map (relabel f)) := fold_update _ _

@[simp] theorem relabel_delete (s : Delete (Expr Empty)) :
    (delete s).relabel f = delete (s.map (relabel f)) := fold_delete _ _

/-- The spelling of the nodes once they have other labels. -/
def relabelledSpelling : Algebra Empty Script :=
  { spelling with
    identifier := fun n => .name (f.name n)
    column := fun t n => columnScript (t.map f.name) (if n = "*" then "*" else f.name n)
    aliased := fun s n => s ++ .fixed " AS " ++ .name (f.name n)
    literal := fun l => (l.relabel f).script
    bind := fun v => .bind (f.value v)
    binds := fun vs => .parenthesized (.commaSeparated ((vs.map f.value).map .bind)) }

/-- It is the same to change the labels of a tree and those of its script. -/
theorem script_relabel {f : Relabelling} (hf : f.Starless) (e : Expr Empty) :
    (e.relabel f).script = e.script.relabel f := by
  have ht : (e.relabel f).script = e.fold (relabelledSpelling f) :=
    fold_fusion (h := script) {
      list := script_list
      function := script_function
      join := script_join
      select := script_select
      insert := script_insert
      update := script_update
      delete := script_delete
      own := nofun } e
  have hs : e.script.relabel f = e.fold (relabelledSpelling f) :=
    fold_fusion (h := Script.relabel f) {
      column := fun t n => by
        cases t <;> by_cases h : n = "*" <;>
          simp [spelling, relabelledSpelling, columnScript, Script.relabel, h, hf n]
      literal := fun l => by cases l <;> rfl
      binds := fun vs => by
        simp [spelling, relabelledSpelling, Script.relabel, Function.comp_def]
      list := fun xs x => by simp [spelling, relabelledSpelling]
      function := fun n xs => by simp [spelling, relabelledSpelling]
      join := fun m x o => by simp [spelling, relabelledSpelling]
      select := Select.relabel_script f
      insert := Insert.relabel_script f
      update := Update.relabel_script f
      delete := Delete.relabel_script f
      own := nofun } e
  rw [ht, hs]

end Expr

def Piece.relabel : Piece → Piece
  | .name s => .name (f.name s)
  | .string s => .string (f.string s)
  | .bind v => .bind (f.value v)
  | p => p

/-- A name has a text in a dialect exactly if its new name has one. -/
def Relabelling.Faithful (d : Dialect) : Prop := ∀ n, d.quoted (f.name n) = "" ↔ d.quoted n = ""

theorem Relabelling.forgetValues_faithful (d : Dialect) : forgetValues.Faithful d :=
  fun _ => Iff.rfl

theorem Relabelling.faithful_of_doubling {d : Dialect} (hd : d.Doubling) : f.Faithful d := by
  intro n
  simp [hd, Piece.token_ne_empty]

variable {f}

theorem Piece.isEmpty_relabel {d : Dialect} (hd : f.Faithful d) (p : Piece) :
    (p.relabel f).isEmpty d = p.isEmpty d := by
  cases p with
  | name n =>
    rw [Bool.eq_iff_iff]
    simpa [relabel, isEmpty] using hd n
  | _ => rfl

theorem Piece.isName_relabel (p : Piece) : (p.relabel f).isName = p.isName := by cases p <;> rfl

theorem Piece.spaced_map_relabel {d : Dialect} (hd : f.Faithful d) (ps : List Piece) :
    spaced d (ps.map (relabel f)) = (spaced d ps).map (relabel f) := by
  have he : (ps.map (relabel f)).all (isEmpty d) = ps.all (isEmpty d) := by
    simp [List.all_map, Function.comp_def, isEmpty_relabel hd]
  have hn : (ps.map (relabel f)).filter isName = (ps.filter isName).map (relabel f) := by
    simp [List.filter_map, Function.comp_def, isName_relabel]
  unfold spaced
  rw [he, hn]
  split <;> rfl

/-- Other labels change the pieces one by one, and neither their number nor their kinds. -/
theorem Script.pieces_relabel {d : Dialect} (hd : f.Faithful d) (s : Script) :
    (s.relabel f).pieces d = (s.pieces d).map (Piece.relabel f) := by
  induction s with
  | append a b iha ihb => simp only [relabel, pieces_append, iha, ihb, pieces, List.map_append]
  | returned a ih => by_cases h : d.returning = true <;> simp [pieces, relabel, h, ih]
  | spaced a ih => rw [relabel, pieces, ih, Piece.spaced_map_relabel hd]; rfl
  | _ => rfl

theorem Expr.pieces_relabel (hf : f.Starless) {d : Dialect} (hd : f.Faithful d) (e : Expr Empty) :
    (e.relabel f).pieces d = (e.pieces d).map (Piece.relabel f) := by
  rw [pieces, script_relabel hf, Script.pieces_relabel hd]; rfl

end BoundSql
