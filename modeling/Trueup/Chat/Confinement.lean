import Trueup.Chat.SqlToolValidator

/-! # What a query can reach

The scopes of SQL over the trees that the validator walks. A common table expression is visible in
the query that its `WITH` belongs to, and in the later expressions of the same `WITH`, or in all of
them when that is recursive; an unqualified name refers to the visible expression of that name, and
to a relation otherwise.

* `passes_of_confined`: no statement confined to the views is rejected for its relations.
* `confined_iff`: an accepted statement is confined to the views exactly when no reference outside
  the scope of its name is `Borrowed` from a common table expression, or a view's name `Misread`. -/

namespace Trueup.Chat

open Trueup.Lib

/-- How names are taken: by `str.lower`, and by PostgreSQL, which folds an identifier to lower case
unless it is quoted, and truncates it. The names of the views are in lower case, and short. -/
structure Names where
  lower : String → String
  read : Identifier → String
  lower_of_read : ∀ identifier, read identifier ∈ curatedViewNames →
    lower identifier.this = read identifier

/-- Names in ASCII, which are not truncated. -/
def asciiNames : Names where
  lower := String.toLower
  read identifier := if identifier.quoted then identifier.this else identifier.this.toLower
  lower_of_read := by
    have hviews : ∀ view ∈ curatedViewNames, view.toLower = view := by decide +kernel
    rintro ⟨this, quoted⟩ hview
    cases quoted
    · rfl
    · exact hviews this hview

/-! ### Scopes -/

section Scopes
variable (names : Names)

/-- The names of the common table expressions among some nodes. -/
def declaredBy (nodes : List Expression) : List String :=
  nodes.filterMap fun node => match node.label with
    | .cte tableAlias => some (names.read tableAlias)
    | _ => none

/-- The names that the `WITH` of a query declares. -/
def declared (query : Expression) : List String :=
  query.children.flatMap fun child => match child.label with
    | .withClause _ => declaredBy names child.children
    | _ => []

/-- The names that are visible in a child, when these are at its parent. -/
def visibleBelow (visible : List String) (parent : Expression) (i : ℕ) : List String :=
  match parent.label with
  | .withClause true => declaredBy names parent.children ++ visible
  | .withClause false => declaredBy names (parent.children.take i) ++ visible
  | _ =>
    match parent.children[i]?.map LabelTree.label with
    | some (.withClause _) => visible
    | _ => declared names parent ++ visible

/-- The nodes of a statement, each with the names that are visible there. -/
def withScopes (statement : Expression) : List (List String × Expression) :=
  LabelTree.annotated (visibleBelow names) [] statement

def IsTable (node : Expression) : Prop := ∃ catalog db this, node.label = .table catalog db this

instance (node : Expression) : Decidable (IsTable node) :=
  match h : node.label with
  | .table catalog db this => isTrue ⟨catalog, db, this, h⟩
  | .select | .union | .intersect | .except | .withClause _ | .cte _ | .connector | .anonymous _
  | .func _ | .other _ => isFalse fun ⟨_, _, _, htable⟩ => by cases h.symm.trans htable

/-- The identifier of a table that is not qualified. -/
def unqualified (node : Expression) : Option Identifier :=
  match node.label with
  | .table none none this => this
  | _ => none

/-- `table.name.lower()`. -/
def loweredName (node : Expression) : String :=
  match node.label with
  | .table _ _ this => names.lower (tableName this)
  | _ => ""

/-- The table is a common table expression that is visible there. -/
def Resolves (visible : List String) (node : Expression) : Prop :=
  ∃ identifier ∈ unqualified node, names.read identifier ∈ visible

/-- The table is the unqualified name of a curated view. -/
def IsCurated (node : Expression) : Prop :=
  ∃ identifier ∈ unqualified node, names.read identifier ∈ curatedViewNames

instance (visible : List String) (node : Expression) : Decidable (Resolves names visible node) :=
  inferInstanceAs (Decidable (∃ identifier ∈ unqualified node, _))

instance (node : Expression) : Decidable (IsCurated names node) :=
  inferInstanceAs (Decidable (∃ identifier ∈ unqualified node, _))

/-- **Confined to the curated views**: every table that is no common table expression is one of
them. -/
def Confined (statement : Expression) : Prop :=
  ∀ reference ∈ withScopes names statement, IsTable reference.2 →
    ¬ Resolves names reference.1 reference.2 → IsCurated names reference.2

/-- The table has the name of some common table expression, which is not visible there, and is no
view; which names these are, `borrowed_iff`. -/
def Borrowed (statement : Expression) (visible : List String) (node : Expression) : Prop :=
  loweredName names node ∈ cteNames names.lower statement ∧ ¬ Resolves names visible node ∧
    ¬ IsCurated names node

/-- The table has the name of a view, but it is qualified, or PostgreSQL takes it for another
name. -/
def Misread (visible : List String) (node : Expression) : Prop :=
  ¬ Resolves names visible node ∧ loweredName names node ∈ curatedViewNames ∧
    ∀ identifier ∈ unqualified node, names.read identifier ≠ loweredName names node

instance (statement : Expression) : Decidable (Confined names statement) :=
  inferInstanceAs (Decidable (∀ reference ∈ withScopes names statement, IsTable reference.2 → _ → _))

instance (statement : Expression) (visible : List String) (node : Expression) :
    Decidable (Borrowed names statement visible node) := inferInstanceAs (Decidable (_ ∧ _ ∧ _))

instance (visible : List String) (node : Expression) : Decidable (Misread names visible node) :=
  inferInstanceAs (Decidable (_ ∧ _ ∧ ∀ identifier ∈ unqualified node, _))

end Scopes

variable {names : Names} {statement node : Expression}

theorem unqualified_eq_some {identifier : Identifier} :
    unqualified node = some identifier ↔ node.label = .table none none (some identifier) := by
  unfold unqualified
  split
  · rename_i this hlabel
    simp [hlabel]
  · rename_i hother
    simp only [reduceCtorEq, false_iff]
    exact hother _

theorem loweredName_of_unqualified {identifier : Identifier} (h : identifier ∈ unqualified node) :
    loweredName names node = names.lower identifier.this := by
  rw [loweredName, unqualified_eq_some.mp h]
  rfl

/-- A curated view has its name as PostgreSQL reads it. -/
theorem IsCurated.lowered (h : IsCurated names node) :
    ∃ identifier ∈ unqualified node, names.read identifier = loweredName names node := by
  obtain ⟨identifier, hidentifier, hread⟩ := h
  refine ⟨identifier, hidentifier, ?_⟩
  rw [loweredName_of_unqualified hidentifier, names.lower_of_read identifier hread]

/-- **Which names are borrowed**: in lower case the name is that of some common table expression, and
the table is qualified, or PostgreSQL reads a name that no expression visible there has, and that is
not the name in lower case, or that no view has. -/
theorem borrowed_iff {visible : List String} : Borrowed names statement visible node ↔
    loweredName names node ∈ cteNames names.lower statement ∧
      (unqualified node = none ∨ ∃ identifier ∈ unqualified node, names.read identifier ∉ visible ∧
        (names.read identifier ≠ loweredName names node ∨
          loweredName names node ∉ curatedViewNames)) := by
  unfold Borrowed Resolves IsCurated
  refine and_congr_right fun _ => ?_
  cases hname : unqualified node with
  | none => simp
  | some identifier =>
    have hlowered : loweredName names node = names.lower identifier.this :=
      loweredName_of_unqualified hname
    have hview : names.read identifier ∈ curatedViewNames ↔
        names.read identifier = loweredName names node ∧ loweredName names node ∈ curatedViewNames := by
      constructor
      · intro hread
        have hsame := (names.lower_of_read identifier hread).symm.trans hlowered.symm
        exact ⟨hsame, hsame ▸ hread⟩
      · rintro ⟨hsame, hmem⟩
        rwa [hsame]
    simp only [Option.mem_some_iff, exists_eq_left', reduceCtorEq, false_or, hview, not_and_or, ne_eq]

/-! ### Accepted statements -/

theorem Accepted.loweredName {visible : List String} (haccepted : Accepted names.lower statement)
    (hscoped : (visible, node) ∈ withScopes names statement) (htable : IsTable node) :
    loweredName names node ∈ cteNames names.lower statement ∨
      loweredName names node ∈ curatedViewNames := by
  have hwalk : node ∈ statement.walk := LabelTree.mem_annotated_iff.mp ⟨visible, hscoped⟩
  obtain ⟨catalog, db, this, hlabel⟩ := htable
  have hname := haccepted.relations node hwalk catalog db this hlabel
  rwa [Chat.loweredName, hlabel]

/-- **When an accepted statement is confined to the views.** -/
theorem confined_iff (names : Names) (sqlglot : Sqlglot) (sql : String)
    (parsed : List (Option Expression)) (statement : Expression)
    (hparse : sqlglot.parse sql = .ok parsed) (hstatement : statementsOf parsed = [statement])
    (hok : (validateQuery names.lower sqlglot sql).ok = true) :
    Confined names statement ↔ ∀ reference ∈ withScopes names statement, IsTable reference.2 →
      ¬ Borrowed names statement reference.1 reference.2 ∧
        ¬ Misread names reference.1 reference.2 := by
  have haccepted : Accepted names.lower statement := by
    obtain ⟨parsed', statement', hparse', hstatement', haccepted⟩ := validateQuery_ok.mp hok
    obtain rfl := Except.ok.inj (hparse.symm.trans hparse')
    rw [hstatement] at hstatement'
    cases hstatement'
    exact haccepted
  refine forall_congr' fun reference => forall_congr' fun hscoped => forall_congr' fun htable => ?_
  obtain ⟨visible, node⟩ := reference
  constructor
  · intro hconfined
    refine ⟨fun ⟨_, hresolves, hcurated⟩ => hcurated (hconfined hresolves), ?_⟩
    rintro ⟨hresolves, -, hmisread⟩
    obtain ⟨identifier, hidentifier, hread⟩ := (hconfined hresolves).lowered
    exact hmisread identifier hidentifier hread
  · rintro ⟨hborrowed, hmisread⟩ hresolves
    by_contra hcurated
    rcases haccepted.loweredName hscoped htable with hcte | hview
    · exact hborrowed ⟨hcte, hresolves, hcurated⟩
    · refine hmisread ⟨hresolves, hview, fun identifier hidentifier hread => ?_⟩
      exact hcurated ⟨identifier, hidentifier, hread ▸ hview⟩

/-- A table, perhaps in a schema. -/
def tableOf (db : Option String) (this : Identifier) : Expression :=
  .node (.table none (db.map (⟨·, false⟩)) (some this)) []

/-- `SELECT * FROM …`, with a list of tables. -/
def selectFrom (tables : List Expression) (withs : List Expression) : Expression :=
  .node .select (.node (.other "Star") [] :: .node (.other "From") tables :: withs)

/-- `WITH name AS (SELECT 1)`. -/
def withOne (name : String) : Expression :=
  .node (.withClause false) [.node (.cte ⟨name, false⟩) [.node .select [.node (.other "Literal") []]]]

/-- A parser that reads this statement. -/
def reads (statement : Expression) : Sqlglot where
  parse := fun _ => .ok [some statement]
  sql := fun _ => ""

/-- `WITH recent AS (SELECT * FROM v_transaction_history) SELECT * FROM recent`. -/
def recentQuery : Expression :=
  selectFrom [tableOf none ⟨"recent", false⟩]
    [.node (.withClause false) [.node (.cte ⟨"recent", false⟩)
      [selectFrom [tableOf none ⟨"v_transaction_history", false⟩] []]]]

/-- PostgreSQL lowers a name that is not quoted, as the validator does. -/
theorem not_misread_of_unquoted {visible : List String} {identifier : Identifier}
    (h : identifier ∈ unqualified node) (hunquoted : identifier.quoted = false) :
    ¬ Misread asciiNames visible node := by
  rintro ⟨-, -, hmisread⟩
  refine hmisread identifier h ?_
  rw [loweredName_of_unqualified h]
  simp [asciiNames, hunquoted]

/-- A query over a common table expression over a view. -/
theorem confined_iff_recent : Confined asciiNames recentQuery := by
  refine (confined_iff asciiNames (reads recentQuery) "" [some recentQuery] recentQuery rfl rfl
    (by decide +kernel)).mpr ?_
  have hreferences : ∀ reference ∈ withScopes asciiNames recentQuery, IsTable reference.2 →
      ¬ Borrowed asciiNames recentQuery reference.1 reference.2 ∧
        ∃ identifier ∈ unqualified reference.2, identifier.quoted = false := by
    decide +kernel
  intro reference hscoped htable
  obtain ⟨hborrowed, identifier, hidentifier, hunquoted⟩ := hreferences reference hscoped htable
  exact ⟨hborrowed, not_misread_of_unquoted hidentifier hunquoted⟩

/-- Accepted queries that reach other relations. -/
def overlooked : List Expression :=
  -- SELECT * FROM (WITH customer AS (SELECT 1) SELECT * FROM customer), customer
  [selectFrom [.node (.other "Subquery") [selectFrom [tableOf none ⟨"customer", false⟩]
      [withOne "customer"]], tableOf none ⟨"customer", false⟩] [],
    -- WITH customer AS (SELECT 1) SELECT * FROM public.customer
    selectFrom [tableOf (some "public") ⟨"customer", false⟩] [withOne "customer"],
    -- SELECT * FROM other.v_holdings
    selectFrom [tableOf (some "other") ⟨"v_holdings", false⟩] [],
    -- SELECT * FROM "V_HOLDINGS"
    selectFrom [tableOf none ⟨"V_HOLDINGS", true⟩] []]

/-- **Relations outside the views.** The second table of the first query, and the tables of the
others, are neither common table expressions nor curated views. -/
theorem overlooked_accepted : overlooked.Forall fun statement =>
    (validateQuery asciiNames.lower (reads statement) "").ok = true ∧
      ¬ Confined asciiNames statement := by
  decide +kernel

/-! ### No confined statement is rejected for its relations -/

theorem mem_declaredBy {nodes : List Expression} {name : String} :
    name ∈ declaredBy names nodes ↔
      ∃ cte ∈ nodes, ∃ tableAlias, cte.label = .cte tableAlias ∧ names.read tableAlias = name := by
  unfold declaredBy
  rw [List.mem_filterMap]
  refine exists_congr fun cte => and_congr_right fun _ => ?_
  split
  · rename_i tableAlias hlabel
    simp [hlabel]
  · rename_i hother
    simp only [reduceCtorEq, false_iff]
    rintro ⟨tableAlias, hlabel, -⟩
    exact hother tableAlias hlabel

theorem mem_declared {query : Expression} {name : String} (h : name ∈ declared names query) :
    ∃ clause ∈ query.children, name ∈ declaredBy names clause.children := by
  obtain ⟨clause, hmem, hname⟩ := List.mem_flatMap.mp h
  split at hname
  · exact ⟨clause, hmem, hname⟩
  · cases hname

/-- A name that is visible somewhere is that of a common table expression of the statement. -/
theorem visible_declared {reference : List String × Expression}
    (hreference : reference ∈ withScopes names statement) : ∀ name ∈ reference.1,
      ∃ cte ∈ statement.walk, ∃ tableAlias, cte.label = .cte tableAlias ∧
        names.read tableAlias = name := by
  refine LabelTree.annotated_induction (P := fun visible _ => ∀ name ∈ visible,
      ∃ cte ∈ statement.walk, ∃ tableAlias, cte.label = .cte tableAlias ∧
        names.read tableAlias = name) (fun name hname => absurd hname List.not_mem_nil)
    (fun visible parent i child hparent hvisible hchild => ?_) reference hreference
  have hchildren : ∀ nodes, (∀ cte ∈ nodes, cte ∈ parent.children) → ∀ name ∈ declaredBy names nodes,
      ∃ cte ∈ statement.walk, ∃ tableAlias, cte.label = .cte tableAlias ∧
        names.read tableAlias = name := by
    intro nodes hnodes name hname
    obtain ⟨cte, hmem, htable⟩ := mem_declaredBy.mp hname
    exact ⟨cte, LabelTree.child_mem_walk hparent (hnodes cte hmem), htable⟩
  intro name hname
  unfold visibleBelow at hname
  split at hname
  · rcases List.mem_append.mp hname with hnew | hold
    · exact hchildren _ (fun cte hmem => hmem) name hnew
    · exact hvisible name hold
  · rcases List.mem_append.mp hname with hnew | hold
    · exact hchildren _ (fun cte hmem => List.mem_of_mem_take hmem) name hnew
    · exact hvisible name hold
  · split at hname
    · exact hvisible name hname
    · rcases List.mem_append.mp hname with hnew | hold
      · obtain ⟨clause, hclause, hdeclared⟩ := mem_declared hnew
        obtain ⟨cte, hmem, htable⟩ := mem_declaredBy.mp hdeclared
        exact ⟨cte, LabelTree.child_mem_walk (LabelTree.child_mem_walk hparent hclause) hmem, htable⟩
      · exact hvisible name hold

/-- **No statement confined to the views is rejected for its relations**, when names that PostgreSQL
takes for the same are the same in lower case. -/
theorem passes_of_confined (hsame : ∀ a b, names.read a = names.read b →
    names.lower a.this = names.lower b.this) (hconfined : Confined names statement)
    (hnode : node ∈ statement.walk) :
    relationReason names.lower (cteNames names.lower statement) node = none := by
  rw [relationReason_eq_none]
  intro catalog db this hlabel
  obtain ⟨visible, hscoped⟩ := LabelTree.mem_annotated_iff.mpr hnode
  have hlowered : loweredName names node = names.lower (tableName this) := by
    rw [loweredName, hlabel]
  rw [← hlowered]
  by_cases hresolves : Resolves names visible node
  · obtain ⟨identifier, hidentifier, hvisible⟩ := hresolves
    obtain ⟨cte, hmem, tableAlias, hcte, hread⟩ := visible_declared hscoped _ hvisible
    refine Or.inl (List.mem_filterMap.mpr ⟨cte, hmem, ?_⟩)
    rw [hcte, loweredName_of_unqualified hidentifier, ← hsame tableAlias identifier hread]
  · obtain ⟨identifier, hidentifier, hread⟩ :=
      hconfined _ hscoped ⟨catalog, db, this, hlabel⟩ hresolves
    rw [loweredName_of_unqualified hidentifier, names.lower_of_read identifier hread]
    exact Or.inr hread

/-! ### The query that is run -/

/-- `SELECT * FROM (…) AS sub LIMIT …`, the query that `ReadOnlySqlExecutor.execute` runs. -/
def wrapped (statement : Expression) : Expression :=
  .node .select [.node (.other "Star") [],
    .node (.other "From") [.node (.other "Subquery") [statement]], .node (.other "Limit") []]

theorem confined_wrapped (hquery : statement.label ∈ allowedStatementTypes) :
    Confined names (wrapped statement) ↔ Confined names statement := by
  have hscopes : withScopes names (wrapped statement) =
      [([], wrapped statement), ([], .node (.other "Star") []),
        ([], .node (.other "From") [.node (.other "Subquery") [statement]]),
        ([], .node (.other "Subquery") [statement])] ++ withScopes names statement ++
        [([], .node (.other "Limit") [])] := by
    obtain ⟨label, children⟩ := statement
    have hlabel : label ∈ allowedStatementTypes := hquery
    simp only [allowedStatementTypes, List.mem_cons, List.not_mem_nil, or_false] at hlabel
    rcases hlabel with rfl | rfl | rfl | rfl <;>
      simp [withScopes, wrapped, LabelTree.annotated, LabelTree.annotatedOf, visibleBelow, declared]
  constructor
  · intro hconfined reference hmem
    refine hconfined reference ?_
    rw [hscopes]
    simp [hmem]
  · intro hconfined reference hmem htable
    obtain ⟨catalog, db, this, hlabel⟩ := htable
    rw [hscopes] at hmem
    simp only [List.mem_append, List.mem_cons, List.not_mem_nil, or_false] at hmem
    rcases hmem with ((rfl | rfl | rfl | rfl) | hinner) | rfl
    · cases hlabel
    · cases hlabel
    · cases hlabel
    · cases hlabel
    · exact hconfined reference hinner ⟨catalog, db, this, hlabel⟩
    · cases hlabel

end Trueup.Chat
