import Trueup.Lib.Trees

/-! # The SQL validator

`services/chat/sql_tool_validator.py`, with `CURATED_VIEW_NAMES` of `models/chat/curated_views.py`,
over the syntax trees of `sqlglot`.

* `validateQuery`, `validateQuery_ok`: what is accepted has passed each of the checks. -/

namespace Trueup.Chat

open Trueup.Lib

/-! ### Syntax trees -/

structure Identifier where
  this : String
  quoted : Bool
  deriving DecidableEq

/-- The class of a node of a syntax tree, with what the validator reads of it. The children of a
node are its arguments that are nodes, in order; those of a `WITH` are its common table expressions,
and the `WITH` of a query is one of the children of the query. -/
inductive NodeClass
  | select | union | intersect | except
  | withClause (recursive : Bool)
  | cte (tableAlias : Identifier)
  /-- The name is missing where a function stands in the place of the table. -/
  | table (catalog db this : Option Identifier)
  /-- `AND`, `OR` and `XOR` -/
  | connector
  /-- a call of a function that `sqlglot` has no class for -/
  | anonymous (name : String)
  /-- any other function or operator that is one, by its `sql_name` -/
  | func (sqlName : String)
  /-- any other class: a subquery, a join, a column, a literal, … -/
  | other (name : String)
  deriving DecidableEq

abbrev Expression := LabelTree NodeClass

/-- `parse` and `Expression.sql`, both for PostgreSQL. -/
structure Sqlglot where
  parse : String → Except Unit (List (Option Expression))
  sql : Expression → String

/-- `table.name` of a table. -/
def tableName (this : Option Identifier) : String :=
  match this with
  | none => ""
  | some identifier => identifier.this

/-! ### The checks -/

/-- `CURATED_VIEW_NAMES`. -/
def curatedViewNames : List String :=
  ["v_customer_balance", "v_holdings", "v_transaction_history", "v_realized_gains", "v_tax_lots",
    "v_dividends", "v_period_return", "v_published_snapshot"]

/-- `_ALLOWED_FUNCTIONS`. -/
def allowedFunctions : List String :=
  ["sum", "count", "avg", "min", "max", "coalesce", "nullif", "cast", "abs", "round", "extract",
    "date_trunc", "timestamp_trunc", "current_timestamp", "current_date"]

/-- `_ALLOWED_STATEMENT_TYPES`. -/
def allowedStatementTypes : List NodeClass := [.select, .union, .intersect, .except]

/-- `', '.join(sorted(names))`. -/
def joined (names : List String) : String := ", ".intercalate (names.mergeSort (· ≤ ·))

section Checks

-- `str.lower`
variable (lower : String → String)

/-- `cte_names`. -/
def cteNames (statement : Expression) : List String :=
  statement.walk.filterMap fun node => match node.label with
    | .cte tableAlias => some (lower tableAlias.this)
    | _ => none

/-- The check of a table. -/
def relationReason (cteNames : List String) (node : Expression) : Option String :=
  match node.label with
  | .table _ _ this =>
    if lower (tableName this) ∈ cteNames then none
    else if lower (tableName this) ∉ curatedViewNames then
      some ("relation '" ++ tableName this ++ "' is not available to this assistant. Available views: " ++
        joined curatedViewNames ++ ".")
    else none
  | _ => none

/-- The check of a function with this name. -/
def functionNameReason (name : String) : Option String :=
  if lower name ∉ allowedFunctions then
    some ("function '" ++ lower name ++ "' is not available to this assistant. Available functions: " ++
      joined allowedFunctions ++ ".")
  else none

/-- The check of a function. -/
def functionReason (node : Expression) : Option String :=
  match node.label with
  | .anonymous name => functionNameReason lower name
  | .func sqlName => functionNameReason lower sqlName
  | _ => none

/-- Why the statement is rejected, if it is. -/
def statementReason (statement : Expression) : Option String :=
  if statement.label ∉ allowedStatementTypes then some "only a SELECT statement is allowed"
  else
    (statement.walk.findSome? (relationReason lower (cteNames lower statement))).or
      (statement.walk.findSome? (functionReason lower))

structure ValidationResult where
  ok : Bool
  normalizedSql : Option String
  reason : Option String
  deriving DecidableEq

def ValidationResult.rejected (reason : String) : ValidationResult := ⟨false, none, some reason⟩

/-- `statements`, the statements that are not missing. -/
def statementsOf (parsed : List (Option Expression)) : List Expression := parsed.filterMap id

/-- `validate_query`. -/
def validateQuery (sqlglot : Sqlglot) (sql : String) : ValidationResult :=
  match sqlglot.parse sql with
  | .error _ => .rejected "the query could not be parsed as SQL"
  | .ok parsed =>
    match statementsOf parsed with
    | [] => .rejected "no SQL statement was found"
    | [statement] =>
      match statementReason lower statement with
      | some reason => .rejected reason
      | none => ⟨true, some (sqlglot.sql statement), none⟩
    | _ :: _ :: _ => .rejected "only a single SQL statement is allowed"

/-! ### What is accepted -/

variable {lower} {statement : Expression}

/-- What the validator has found out about a statement that it accepts. -/
structure Accepted (lower : String → String) (statement : Expression) : Prop where
  isQuery : statement.label ∈ allowedStatementTypes
  relations : ∀ node ∈ statement.walk, ∀ catalog db this, node.label = .table catalog db this →
    lower (tableName this) ∈ cteNames lower statement ∨ lower (tableName this) ∈ curatedViewNames
  functions : ∀ node ∈ statement.walk, ∀ name, node.label = .anonymous name ∨ node.label = .func name →
    lower name ∈ allowedFunctions

theorem relationReason_eq_none {names : List String} {node : Expression} :
    relationReason lower names node = none ↔ ∀ catalog db this, node.label = .table catalog db this →
      lower (tableName this) ∈ names ∨ lower (tableName this) ∈ curatedViewNames := by
  unfold relationReason
  split
  · rename_i catalog db this hlabel
    by_cases hname : lower (tableName this) ∈ names
    · simp [hlabel, hname]
    · by_cases hview : lower (tableName this) ∈ curatedViewNames <;> simp [hlabel, hname, hview]
  · rename_i hother
    simp only [true_iff]
    intro catalog db this hlabel
    exact absurd hlabel (hother catalog db this)

theorem functionReason_eq_none {node : Expression} :
    functionReason lower node = none ↔
      ∀ name, node.label = .anonymous name ∨ node.label = .func name → lower name ∈ allowedFunctions := by
  have hname : ∀ name, functionNameReason lower name = none ↔ lower name ∈ allowedFunctions := by
    intro name
    unfold functionNameReason
    split_ifs with hnot <;> simp [hnot, not_not.mp]
  unfold functionReason
  split
  · rename_i name hlabel
    simp [hname, hlabel]
  · rename_i name hlabel
    simp [hname, hlabel]
  · rename_i hanonymous hfunc
    simp only [true_iff]
    rintro name (hlabel | hlabel)
    · exact absurd hlabel (hanonymous name)
    · exact absurd hlabel (hfunc name)

theorem statementReason_eq_none : statementReason lower statement = none ↔ Accepted lower statement := by
  unfold statementReason
  by_cases htype : statement.label ∉ allowedStatementTypes
  · rw [if_pos htype]
    constructor
    · intro h
      cases h
    · intro h
      exact absurd h.isQuery htype
  · rw [if_neg htype, Option.or_eq_none_iff, List.findSome?_eq_none_iff, List.findSome?_eq_none_iff]
    simp only [relationReason_eq_none, functionReason_eq_none]
    exact ⟨fun ⟨hrelations, hfunctions⟩ => ⟨not_not.mp htype, hrelations, hfunctions⟩,
      fun h => ⟨h.relations, h.functions⟩⟩

/-- **What is accepted**: a single statement that passes the checks. -/
theorem validateQuery_ok {sqlglot : Sqlglot} {sql : String} :
    (validateQuery lower sqlglot sql).ok = true ↔ ∃ parsed statement, sqlglot.parse sql = .ok parsed ∧
      statementsOf parsed = [statement] ∧ Accepted lower statement := by
  unfold validateQuery
  split
  · rename_i herror
    simp [herror, ValidationResult.rejected]
  · rename_i parsed hparsed
    split
    · rename_i hnone
      simp [hparsed, hnone, ValidationResult.rejected]
    · rename_i statement hone
      split
      · rename_i reason hreason
        have hnot : ¬ Accepted lower statement := fun h => by
          rw [statementReason_eq_none.mpr h] at hreason
          cases hreason
        simp [hparsed, hone, hnot, ValidationResult.rejected]
      · rename_i hreason
        simp [hparsed, hone, statementReason_eq_none.mp hreason]
    · rename_i first second rest hmany
      simp [hparsed, hmany, ValidationResult.rejected]

end Checks

end Trueup.Chat
