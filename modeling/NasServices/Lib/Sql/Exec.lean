import Mathlib.Logic.Function.Basic
import NasServices.Lib.Decimal
import NasServices.Lib.Sql.Lexer

/-!
# Tables and statements

A small part of SQLite: tables with typed columns and one key, `INSERT` with
bound parameters, and `UPDATE` and `DELETE` given as text. A text is cut into
statements at semicolons, and these run in order until one fails
(`execute`). A condition is a disjunction of conjunctions of equalities, as it
reads without parentheses; a statement outside this part is refused.

A value is converted to the type of its column when it is stored
(`Value.store`), and when it is compared with a column.
-/

namespace Nas.Lib.Sql

inductive Value
  | null
  | int (n : Int)
  | real (x : ℚ)
  | text (s : String)
  deriving DecidableEq, Repr

inductive Affinity
  | text
  | integer
  | real
  deriving DecidableEq, Repr

def Value.number (x : ℚ) : Value := if x.den = 1 then .int x.num else .real x

def Value.store : Affinity → Value → Value
  | .integer, .text s => ((parseNumber s.toList).map Value.number).getD (.text s)
  | .integer, .real x => .number x
  | .real, .text s => ((parseNumber s.toList).map Value.real).getD (.text s)
  | .real, .int n => .real n
  | .text, .int n => .text (String.ofList (intText n))
  | _, v => v

def truncate (x : ℚ) : Int := x.num.tdiv x.den

def Value.toInt : Value → Int
  | .null => 0
  | .int n => n
  | .real x => truncate x
  | .text s => ((parseNumber s.toList).map truncate).getD 0

/-- `sqlite3_column_text`, for the columns that hold texts. -/
def Value.toText : Value → String
  | .text s => s
  | .int n => String.ofList (intText n)
  | _ => ""

def Value.same : Value → Value → Bool
  | .int m, .int n => m == n
  | .int m, .real y => (m : ℚ) == y
  | .real x, .int n => x == (n : ℚ)
  | .real x, .real y => x == y
  | .text s, .text r => s == r
  | _, _ => false

structure Column where
  name : String
  affinity : Affinity
  deriving DecidableEq, Repr

structure Table where
  columns : List Column
  key : Nat
  rows : List (List Value)
  deriving DecidableEq, Repr

namespace Table

def index (t : Table) (name : String) : Option Nat := t.columns.findIdx? (·.name == name)

def insert (t : Table) (values : List (String × Value)) : Option Table :=
  let row := t.columns.map fun c => ((values.lookup c.name).getD .null).store c.affinity
  if t.rows.any fun r => r[t.key]? == row[t.key]? then none
  else some { t with rows := t.rows ++ [row] }

end Table

/-! ## Statements -/

inductive Operand
  | const (v : Value)
  | column (name : String)
  deriving DecidableEq, Repr

abbrev Condition := List (List (Operand × Operand))

inductive Statement
  | update (table : String) (sets : List (String × Operand)) (cond : Option Condition)
  | delete (table : String) (cond : Option Condition)
  deriving DecidableEq, Repr

def isKeyword (k : String) : Token → Bool
  | .word w => w.toList.map Char.toUpper == k.toList
  | _ => false

def nameOf : Token → Option String
  | .text s | .name s | .word s => some s
  | _ => none

def operand : Token → Option Operand
  | .text s => some (.const (.text s))
  | .name s => some (.column s)
  | .word w => some (((parseNumber w.toList).map fun x => .const (.number x)).getD (.column w))
  | _ => none

def parseCondition : List Token → Option Condition
  | a :: eq :: b :: ts =>
    match operand a, operand b with
    | some x, some y =>
      if eq ≠ .symbol '=' then none
      else match ts with
        | [] => some [[(x, y)]]
        | k :: ts =>
          match parseCondition ts with
          | some (c :: cs) =>
            if isKeyword "OR" k then some ([(x, y)] :: c :: cs)
            else if isKeyword "AND" k then some (((x, y) :: c) :: cs)
            else none
          | _ => none
    | _, _ => none
  | _ => none

def parseWhere : List Token → Option (Option Condition)
  | [] => some none
  | t :: ts => if isKeyword "WHERE" t then (parseCondition ts).map some else none

def parseSets : List Token → Option (List (String × Operand) × List Token)
  | col :: eq :: val :: ts =>
    match nameOf col, operand val with
    | some name, some x =>
      if eq ≠ .symbol '=' then none
      else match ts with
        | [] => some ([(name, x)], [])
        | t :: ts =>
          if t = .symbol ',' then (parseSets ts).map fun p => ((name, x) :: p.1, p.2)
          else some ([(name, x)], t :: ts)
    | _, _ => none
  | _ => none

def parseStatement : List Token → Option Statement
  | a :: b :: c :: ts =>
    if isKeyword "UPDATE" a && isKeyword "SET" c then
      match nameOf b, parseSets ts with
      | some name, some (sets, rest) => (parseWhere rest).map (.update name sets)
      | _, _ => none
    else if isKeyword "DELETE" a && isKeyword "FROM" b then
      match nameOf c with
      | some name => (parseWhere ts).map (.delete name)
      | none => none
    else none
  | _ => none

/-! ### The statements about one row

`UPDATE 't' SET c='v', … WHERE k='v'` and `DELETE FROM 't' WHERE k='v'`. -/

def setTokens : List (String × String) → List Token
  | [] => []
  | (c, v) :: sets =>
    .word c :: .symbol '=' :: .text v :: if sets = [] then [] else .symbol ',' :: setTokens sets

def whereTokens (key v : String) : List Token := [.word "WHERE", .word key, .symbol '=', .text v]

def assignments (sets : List (String × String)) : List (String × Operand) :=
  sets.map fun s => (s.1, .const (.text s.2))

def keyCondition (key v : String) : Option Condition := some [[(.column key, .const (.text v))]]

theorem parseSets_setTokens {rest : List Token} (hrest : rest.head? ≠ some (.symbol ',')) :
    ∀ {sets : List (String × String)}, sets ≠ [] →
      parseSets (setTokens sets ++ rest) = some (assignments sets, rest)
  | [(c, v)], _ => by
    show parseSets (.word c :: .symbol '=' :: .text v :: rest) = _
    rw [parseSets]
    cases rest with
    | nil => simp [nameOf, operand, assignments]
    | cons t ts =>
      have ht : t ≠ .symbol ',' := fun ht => hrest (by rw [ht]; rfl)
      simp [nameOf, operand, assignments, ht]
  | (c, v) :: s :: sets, _ => by
    show parseSets (.word c :: .symbol '=' :: .text v :: .symbol ',' ::
      (setTokens (s :: sets) ++ rest)) = _
    rw [parseSets]
    simp [nameOf, operand, assignments, parseSets_setTokens hrest (List.cons_ne_nil s sets)]

theorem parseWhere_whereTokens {key : String} (hkey : parseNumber key.toList = none) (v : String) :
    parseWhere (whereTokens key v) = some (keyCondition key v) := by
  have hwhere : isKeyword "WHERE" (.word "WHERE") = true := by decide +kernel
  simp [whereTokens, parseWhere, hwhere, parseCondition, operand, hkey, keyCondition]

theorem parseStatement_update {key : String} (hkey : parseNumber key.toList = none)
    {sets : List (String × String)} (h : sets ≠ []) (table v : String) :
    parseStatement (.word "UPDATE" :: .text table :: .word "SET" ::
      (setTokens sets ++ whereTokens key v)) =
      some (.update table (assignments sets) (keyCondition key v)) := by
  have hupdate : isKeyword "UPDATE" (.word "UPDATE") = true := by decide +kernel
  have hset : isKeyword "SET" (.word "SET") = true := by decide +kernel
  have hrest : (whereTokens key v).head? ≠ some (.symbol ',') := by simp [whereTokens]
  simp [parseStatement, hupdate, hset, nameOf, parseSets_setTokens hrest h,
    parseWhere_whereTokens hkey]

theorem parseStatement_delete {key : String} (hkey : parseNumber key.toList = none) (table v : String) :
    parseStatement (.word "DELETE" :: .word "FROM" :: .text table :: whereTokens key v) =
      some (.delete table (keyCondition key v)) := by
  have hupdate : isKeyword "UPDATE" (.word "DELETE") = false := by decide +kernel
  have hdelete : isKeyword "DELETE" (.word "DELETE") = true := by decide +kernel
  have hfrom : isKeyword "FROM" (.word "FROM") = true := by decide +kernel
  simp [parseStatement, hupdate, hdelete, hfrom, nameOf, parseWhere_whereTokens hkey]

theorem semicolon_notMem_setTokens (sets : List (String × String)) :
    Token.symbol ';' ∉ setTokens sets := by
  induction sets with
  | nil => simp [setTokens]
  | cons s sets ih =>
    by_cases h : sets = []
    · simp [setTokens, h]
    · simp [setTokens, h, ih]

/-! ## Execution -/

namespace Table

def knows (t : Table) : Operand → Bool
  | .const _ => true
  | .column c => (t.index c).isSome

def value (t : Table) (row : List Value) : Operand → Value
  | .const v => v
  | .column c => ((t.index c).bind (row[·]?)).getD .null

def coerce (t : Table) (o : Operand) (v : Value) : Value :=
  match o with
  | .const _ => v
  | .column c =>
    match (t.index c).bind (t.columns[·]?) with
    | none => v
    | some col => if col.affinity = .text then v.store .text else v.store .integer

def equal (t : Table) (row : List Value) (p : Operand × Operand) : Bool :=
  (t.coerce p.2 (t.value row p.1)).same (t.coerce p.1 (t.value row p.2))

def holds (t : Table) (row : List Value) : Option Condition → Bool
  | none => true
  | some cond => cond.any (·.all (t.equal row))

def affinity (t : Table) (i : Nat) : Affinity := (t.columns[i]?.map (·.affinity)).getD .text

/-- The assignments, each made with the values before the statement; the last one for a
column counts. -/
def assign (t : Table) (sets : List (String × Operand)) (row : List Value) : List Value :=
  sets.foldl (fun r s =>
    match t.index s.1 with
    | none => r
    | some i => r.set i ((t.value row s.2).store (t.affinity i))) row

end Table

def Condition.operands (cond : Option Condition) : List Operand :=
  (cond.getD []).flatten.flatMap fun p => [p.1, p.2]

/-- Tables by name; letter case does not count. -/
abbrev Db := String → Option Table

def fold (name : String) : String := String.ofList (name.toList.map Char.toLower)

def Db.modify (db : Db) (name : String) (f : Table → Table) : Db :=
  Function.update db (fold name) ((db (fold name)).map f)

/-- The database after the statement, unless it names a table or column that does not exist. -/
def Statement.exec (db : Db) : Statement → Option Db
  | .update name sets cond =>
    match db (fold name) with
    | none => none
    | some t =>
      if (Condition.operands cond ++ sets.flatMap fun s => [.column s.1, s.2]).all t.knows then
        some (db.modify name fun t =>
          { t with rows := t.rows.map fun r => if t.holds r cond then t.assign sets r else r })
      else none
  | .delete name cond =>
    match db (fold name) with
    | none => none
    | some t =>
      if (Condition.operands cond).all t.knows then
        some (db.modify name fun t => { t with rows := t.rows.filter fun r => !t.holds r cond })
      else none

/-- Statements run in order; one that cannot be parsed or run stops the rest. -/
def executeAll (db : Db) : List (List Token) → Db × Bool
  | [] => (db, true)
  | ts :: r =>
    match (parseStatement ts).bind (·.exec db) with
    | none => (db, false)
    | some db' => executeAll db' r

def statements (ts : List Token) : List (List Token) :=
  (ts.splitOnP (· == .symbol ';')).filter (· ≠ [])

def execute (db : Db) (sql : List Char) : Db × Bool := executeAll db (statements (lex sql))

theorem Table.holds_keyCondition {t : Table} {key : String} {k : Nat} (hk : t.index key = some k)
    (ha : t.columns[k]? = some ⟨key, .text⟩) (row : List Value) (v : String) :
    t.holds row (keyCondition key v) = (row[k]? == some (.text v)) := by
  have hcoerce : t.coerce (.column key) (.text v) = .text v := by
    simp [Table.coerce, hk, ha, Value.store]
  have hequal : t.equal row (.column key, .const (.text v)) =
      ((row[k]?).getD .null).same (.text v) := by
    simp only [Table.equal, Table.value, hk, Option.bind_some, hcoerce]
    rfl
  simp only [Table.holds, keyCondition, List.any_cons, List.any_nil, List.all_cons, List.all_nil,
    Bool.and_true, Bool.or_false, hequal]
  rcases row[k]? with _ | x
  · rfl
  · cases x <;> simp [Value.same]

theorem Table.assign_assignments {t : Table} {sets : List (String × String)}
    {cells : List (Nat × Value)}
    (h : List.Forall₂ (fun s c => t.index s.1 = some c.1 ∧
      (Value.text s.2).store (t.affinity c.1) = c.2) sets cells) (row : List Value) :
    t.assign (assignments sets) row = cells.foldl (fun r c => r.set c.1 c.2) row := by
  have hfold (r : List Value) : (assignments sets).foldl (fun r s =>
      match t.index s.1 with
      | none => r
      | some i => r.set i ((t.value row s.2).store (t.affinity i))) r =
      cells.foldl (fun r c => r.set c.1 c.2) r := by
    induction h generalizing r with
    | nil => rfl
    | cons hc _ ih =>
      rename_i s c sets cells
      simp only [assignments, List.map_cons, List.foldl_cons, hc.1, Table.value, hc.2]
      exact ih _
  exact hfold row

theorem statements_eq_single {ts : List Token} (hne : ts ≠ []) (h : Token.symbol ';' ∉ ts) :
    statements ts = [ts] := by
  have hsplit : ts.splitOnP (· == .symbol ';') = [ts] := by
    refine List.splitOnP_eq_singleton fun x hx => beq_eq_false_iff_ne.mpr ?_
    rintro rfl
    exact h hx
  simp [statements, hsplit, hne]

theorem execute_eq {db db' : Db} {sql : List Char} {s : Statement} (h : Token.symbol ';' ∉ lex sql)
    (hp : parseStatement (lex sql) = some s) (he : s.exec db = some db') :
    execute db sql = (db', true) := by
  have hne : lex sql ≠ [] := fun hn => by rw [hn] at hp; cases hp
  rw [execute, statements_eq_single hne h]
  simp [executeAll, hp, he]

section RowStatements

variable {db : Db} {t : Table} {name key v : String} {k : Nat} {sql : List Char}

theorem execute_updateRow {sets : List (String × String)} (hdb : db (fold name) = some t)
    (hk : t.index key = some k) (ha : t.columns[k]? = some ⟨key, .text⟩)
    (hkey : parseNumber key.toList = none) (hne : sets ≠ [])
    (hsets : ∀ s ∈ sets, (t.index s.1).isSome)
    (hlex : lex sql = .word "UPDATE" :: .text name :: .word "SET" ::
      (setTokens sets ++ whereTokens key v)) :
    execute db sql = (Function.update db (fold name) (some { t with
      rows := t.rows.map fun r =>
        if r[k]? == some (.text v) then t.assign (assignments sets) r else r }), true) := by
  have hsemi : Token.symbol ';' ∉ lex sql := by
    simp [hlex, semicolon_notMem_setTokens, whereTokens]
  have hknows : (Condition.operands (keyCondition key v) ++
      (assignments sets).flatMap fun s => [.column s.1, s.2]).all t.knows = true := by
    simp only [keyCondition, Condition.operands, assignments, List.all_append, List.all_flatMap,
      List.all_map]
    simpa [Table.knows, hk] using hsets
  refine execute_eq hsemi (by rw [hlex]; exact parseStatement_update hkey hne name v) ?_
  simp only [Statement.exec, hdb, hknows, if_true, Db.modify, Option.map_some,
    Table.holds_keyCondition hk ha]

theorem execute_deleteRow (hdb : db (fold name) = some t) (hk : t.index key = some k)
    (ha : t.columns[k]? = some ⟨key, .text⟩) (hkey : parseNumber key.toList = none)
    (hlex : lex sql = .word "DELETE" :: .word "FROM" :: .text name :: whereTokens key v) :
    execute db sql = (Function.update db (fold name) (some { t with
      rows := t.rows.filter fun r => !(r[k]? == some (.text v)) }), true) := by
  have hsemi : Token.symbol ';' ∉ lex sql := by simp [hlex, whereTokens]
  have hknows : (Condition.operands (keyCondition key v)).all t.knows = true := by
    simp [keyCondition, Condition.operands, Table.knows, hk]
  refine execute_eq hsemi (by rw [hlex]; exact parseStatement_delete hkey name v) ?_
  simp only [Statement.exec, hdb, hknows, if_true, Db.modify, Option.map_some,
    Table.holds_keyCondition hk ha]

end RowStatements

/-! ### One table at a time -/

section

variable {db db' : Db} {s : Statement} {name other key v : String} {sql : List Char}

def Statement.table : Statement → String
  | .update name _ _ | .delete name _ => name

theorem Statement.exec_eq_modify (h : s.exec db = some db') : ∃ f, db' = db.modify s.table f := by
  cases s <;> simp only [exec] at h <;> split at h
  any_goals split at h
  any_goals cases h
  all_goals exact ⟨_, rfl⟩

theorem execute_of_ne (h : Token.symbol ';' ∉ lex sql) (hp : parseStatement (lex sql) = some s)
    (hother : other ≠ fold s.table) : (execute db sql).1 other = db other := by
  have hne : lex sql ≠ [] := fun hn => by rw [hn] at hp; cases hp
  rw [execute, statements_eq_single hne h, executeAll, hp, Option.bind_some]
  cases he : s.exec db with
  | none => rfl
  | some db' =>
    obtain ⟨f, rfl⟩ := s.exec_eq_modify he
    exact Function.update_of_ne hother _ _

theorem execute_updateRow_of_ne (hkey : parseNumber key.toList = none) {sets : List (String × String)}
    (hne : sets ≠ []) (hother : other ≠ fold name)
    (hlex : lex sql = .word "UPDATE" :: .text name :: .word "SET" :: (setTokens sets ++ whereTokens key v)) :
    (execute db sql).1 other = db other := by
  have hparse := parseStatement_update hkey hne name v
  rw [← hlex] at hparse
  exact execute_of_ne (by simp [hlex, semicolon_notMem_setTokens, whereTokens]) hparse hother

theorem execute_deleteRow_of_ne (hkey : parseNumber key.toList = none) (hother : other ≠ fold name)
    (hlex : lex sql = .word "DELETE" :: .word "FROM" :: .text name :: whereTokens key v) :
    (execute db sql).1 other = db other := by
  have hparse := parseStatement_delete hkey name v
  rw [← hlex] at hparse
  exact execute_of_ne (by simp [hlex, whereTokens]) hparse hother

theorem execute_deleteAll (hlex : lex sql = [.word "DELETE", .word "FROM", .text name]) :
    execute db sql = (db.modify name fun t => { t with rows := [] }, (db (fold name)).isSome) := by
  have hparse : parseStatement [.word "DELETE", .word "FROM", .text name] = some (.delete name none) := by
    have hupdate : isKeyword "UPDATE" (.word "DELETE") = false := by decide +kernel
    have hdelete : isKeyword "DELETE" (.word "DELETE") = true := by decide +kernel
    have hfrom : isKeyword "FROM" (.word "FROM") = true := by decide +kernel
    simp [parseStatement, hupdate, hdelete, hfrom, nameOf, parseWhere]
  rw [execute, statements_eq_single (by simp [hlex]) (by simp [hlex]), hlex, executeAll, hparse, Option.bind_some]
  cases hdb : db (fold name) with
  | none =>
    have hsame : db.modify name (fun t => { t with rows := [] }) = db := by
      rw [Db.modify, hdb, Option.map_none, ← hdb, Function.update_eq_self]
    simp [Statement.exec, hdb, hsame]
  | some t => simp [Statement.exec, hdb, Db.modify, Condition.operands, Table.holds, executeAll]

end

end Nas.Lib.Sql
