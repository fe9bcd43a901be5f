import RouteManifest.Proofs.FreshExpressions
import RouteManifest.Proofs.Bindings
import RouteManifest.Proofs.Recompiling

/-!
# Statements and modules as they are read

With the last readers the rules can be tied together: by induction on how deep they may go, all of
them give trees as they are read. What is known of such modules then holds of the module of every
text, and of the calls by which a routes file is compiled.
-/

namespace RouteManifest.Script.Grammar

instance : HasTrees LoopHead where
  fresh
    | .counted init test update => fresh init ∧ fresh test ∧ fresh update
    | .forIn left right | .forOf left right => fresh left ∧ fresh right

@[simp] theorem fresh_counted {init test update : Tree} :
    fresh (LoopHead.counted init test update) ↔ fresh init ∧ fresh test ∧ fresh update := Iff.rfl

@[simp] theorem fresh_forIn {left right : Tree} :
    fresh (LoopHead.forIn left right) ↔ fresh left ∧ fresh right := Iff.rfl

@[simp] theorem fresh_forOf {left right : Tree} :
    fresh (LoopHead.forOf left right) ↔ fresh left ∧ fresh right := Iff.rfl

variable {r : Rules} (hr : r.Fresh)

include hr

/-! ## Statements -/

@[simp] theorem gives_subStatement : Gives (subStatement r) := by
  unfold subStatement
  repeat' first | intro _ | with_reducible constructor | split | simp_all

@[simp] theorem gives_condition : Gives (condition r) := by
  unfold condition
  repeat' first | intro _ | with_reducible constructor | split | simp_all

@[simp] theorem gives_declarator {inHead : Bool} {kind : String} :
    Gives (declarator r inHead kind) := by
  unfold declarator
  repeat' first | intro _ | with_reducible constructor | split | simp_all

@[simp] theorem gives_variableDecl {inHead : Bool} : Gives (variableDecl r inHead) := by
  unfold variableDecl
  repeat' first | intro _ | with_reducible constructor | split | simp_all

@[simp] theorem gives_usingDecl? {start : Nat} {isAwait : Bool} :
    Gives (usingDecl? r start isAwait) := by
  unfold usingDecl?
  repeat' first | intro _ | with_reducible constructor | split | simp_all

omit hr in
@[simp] theorem gives_jumpStatement {start : Nat} {isBreak : Bool} :
    Gives (jumpStatement r start isBreak) := by
  unfold jumpStatement
  repeat' first | intro _ | with_reducible constructor | split | simp_all

@[simp] theorem gives_returnStatement : Gives (returnStatement r) := by
  unfold returnStatement
  repeat' first | intro _ | with_reducible constructor | split | simp_all

@[simp] theorem gives_throwStatement : Gives (throwStatement r) := by
  unfold throwStatement
  repeat' first | intro _ | with_reducible constructor | split | simp_all

omit hr in
@[simp] theorem fresh_withElse {t last : Tree} {fuel : Nat} (h : fresh t) (hlast : fresh last) :
    fresh (withElse t last fuel) := by
  induction fuel generalizing t with
  | zero => exact h
  | succ fuel ih =>
    rw [withElse]
    split
    · exact Tree.fresh_withSpan (Tree.fresh_setPart h 1 (ih (Tree.fresh_part h 2))) _
    · exact Tree.fresh_withSpan (Tree.fresh_setPart h 1 hlast) _

@[simp] theorem gives_ifStatement : Gives (ifStatement r) := by
  unfold ifStatement
  repeat' first | intro _ | with_reducible constructor | split | simp_all

@[simp] theorem gives_switchCase {hasDefault : Bool} : Gives (switchCase r hasDefault) := by
  unfold switchCase
  repeat' first | intro _ | with_reducible constructor | split | simp_all

@[simp] theorem gives_switchStatement : Gives (switchStatement r) := by
  unfold switchStatement
  repeat' first | intro _ | with_reducible constructor | split | simp_all

@[simp] theorem gives_catchClause? : Gives (catchClause? r) := by
  unfold catchClause?
  repeat' first | intro _ | with_reducible constructor | split | simp_all

@[simp] theorem gives_finallyBlock? : Gives (finallyBlock? r) := by
  unfold finallyBlock?
  repeat' first | intro _ | with_reducible constructor | split | simp_all

@[simp] theorem gives_tryStatement : Gives (tryStatement r) := by
  unfold tryStatement
  repeat' first | intro _ | with_reducible constructor | split | simp_all

omit hr in
@[simp] theorem gives_strayHandler {isCatch : Bool} : Gives (strayHandler r isCatch) := by
  unfold strayHandler
  repeat' first | intro _ | with_reducible constructor | split | simp_all

@[simp] theorem gives_loopBody : Gives (loopBody r) := by
  unfold loopBody
  repeat' first | intro _ | with_reducible constructor | split | simp_all

@[simp] theorem gives_whileStatement : Gives (whileStatement r) := by
  unfold whileStatement
  repeat' first | intro _ | with_reducible constructor | split | simp_all

@[simp] theorem gives_doStatement : Gives (doStatement r) := by
  unfold doStatement
  repeat' first | intro _ | with_reducible constructor | split | simp_all

@[simp] theorem gives_withStatement : Gives (withStatement r) := by
  unfold withStatement
  repeat' first | intro _ | with_reducible constructor | split | simp_all

@[simp] theorem gives_iterationHead {left : Tree} (h : fresh left) :
    Gives (iterationHead r left) := by
  unfold iterationHead
  repeat' first | intro _ | with_reducible constructor | split | simp_all

@[simp] theorem gives_countedHead {init : Tree} (h : fresh init) : Gives (countedHead r init) := by
  unfold countedHead
  repeat' first | intro _ | with_reducible constructor | split | simp_all

@[simp] theorem gives_variableHead : Gives (variableHead r) := by
  unfold variableHead
  repeat' first | intro _ | with_reducible constructor | split | simp_all

@[simp] theorem gives_loopHead : Gives (loopHead r) := by
  unfold loopHead
  repeat' first | intro _ | with_reducible constructor | split | simp_all

@[simp] theorem gives_forStatement : Gives (forStatement r) := by
  unfold forStatement
  repeat' first | intro _ | with_reducible constructor | split | simp_all

/-! ## Declarations -/

@[simp] theorem gives_labeledStatement {label : Tree} (h : fresh label) :
    Gives (labeledStatement r label) := by
  unfold labeledStatement
  repeat' first | intro _ | with_reducible constructor | split | simp_all

omit hr in
@[simp] theorem fresh_declared {t : Tree} (h : fresh t) : fresh (declared t) := by
  obtain ⟨own, inner⟩ := Tree.fresh_iff.mp h
  refine Tree.fresh_node.mpr ⟨?_, inner⟩
  split <;> simp_all

omit hr in
@[simp] theorem fresh_startingAt {start : Nat} {t : Tree} (h : fresh t) :
    fresh (startingAt start t) := by
  have moved (span : Span) : fresh (t.setPart 1 ((t.part 1).withSpan span)) :=
    Tree.fresh_setPart h 0 (Tree.fresh_withSpan (Tree.fresh_part h 1) span)
  unfold startingAt
  split
  · exact Tree.fresh_withSpan (moved _) _
  · exact Tree.fresh_withSpan (moved _) _
  · exact Tree.fresh_withSpan h _

@[simp] theorem gives_namespaceBlock : Gives (namespaceBlock r) := by
  unfold namespaceBlock
  repeat' first | intro _ | with_reducible constructor | split | simp_all

@[simp] theorem gives_namespaceDecl {start : Nat} : Gives (namespaceDecl r start) := by
  unfold namespaceDecl
  repeat' first | intro _ | with_reducible constructor | split | simp_all

@[simp] theorem gives_ambientModule {start : Nat} : Gives (ambientModule r start) := by
  unfold ambientModule
  repeat' first | intro _ | with_reducible constructor | split | simp_all

@[simp] theorem gives_wordDeclaration {start : Nat} {marks : List Tree} {word : String}
    {next : Bool} (h : fresh marks) : Gives (wordDeclaration r start marks word next) := by
  unfold wordDeclaration
  repeat' first | intro _ | with_reducible constructor | split | simp_all

@[simp] theorem gives_ambientDeclaration? {start : Nat} {marks : List Tree} (h : fresh marks) :
    Gives (ambientDeclaration? r start marks) := by
  unfold ambientDeclaration?
  repeat' first | intro _ | with_reducible constructor | split | simp_all

@[simp] theorem gives_declarationAfterName? {marks : List Tree} {name : Tree} (h : fresh marks)
    (hname : fresh name) : Gives (declarationAfterName? r marks name) := by
  unfold declarationAfterName?
  repeat' first | intro _ | with_reducible constructor | split | simp_all

/-! ## Any statement -/

@[simp] theorem gives_expressionEnd {start : Nat} {e : Tree} (h : fresh e) :
    Gives (expressionEnd r start e) := by
  unfold expressionEnd
  repeat' first | intro _ | with_reducible constructor | split | simp_all

@[simp] theorem gives_expressionStatement {start : Nat} {marks : List Tree} (h : fresh marks) :
    Gives (expressionStatement r start marks) := by
  unfold expressionStatement
  repeat' first | intro _ | with_reducible constructor | split | simp_all

@[simp] theorem gives_awaitUsing {start : Nat} : Gives (awaitUsing r start) := by
  unfold awaitUsing
  repeat' first | intro _ | with_reducible constructor | split | simp_all

@[simp] theorem gives_wordStatement? {start : Nat} {declarations topLevel : Bool}
    {marks : List Tree} {word : String} (h : fresh marks) :
    Gives (wordStatement? r start declarations topLevel marks word) := by
  unfold wordStatement?
  repeat' first | intro _ | with_reducible constructor | split | simp_all

@[simp] theorem gives_statementAfterMarks {start : Nat} {declarations topLevel : Bool}
    {marks : List Tree} (h : fresh marks) :
    Gives (statementAfterMarks r start declarations topLevel marks) := by
  unfold statementAfterMarks
  repeat' first | intro _ | with_reducible constructor | split | simp_all

/-! ## Imports and exports -/

omit hr in
@[simp] theorem gives_sourceText : Gives sourceText := by
  unfold sourceText
  repeat' first | intro _ | with_reducible constructor | split | simp_all

@[simp] theorem gives_attributes? : Gives (attributes? r) := by
  unfold attributes?
  repeat' first | intro _ | with_reducible constructor | split | simp_all

omit hr in
@[simp] theorem gives_importedBinding : Gives importedBinding := by
  unfold importedBinding
  repeat' first | intro _ | with_reducible constructor | split | simp_all

omit hr in
@[simp] theorem gives_typedName {start : Nat} {word : Tree} {bind : Parse Tree}
    {make : Bool → Span → Tree → Tree → Tree} {checkName : Tree → Parse Unit}
    {inTypeList : Parse Unit} (hword : fresh word) (hbind : Gives bind)
    (made : ∀ isType span name target, fresh name → fresh target →
      fresh (make isType span name target)) :
    Gives (typedName start word bind make checkName inTypeList) := by
  unfold typedName
  repeat' first | intro _ | with_reducible constructor | split | simp_all

omit hr in
@[simp] theorem gives_importSpecifier {typeOnly : Bool} : Gives (importSpecifier typeOnly) := by
  unfold importSpecifier
  refine .bind .any fun start _ => .bind gives_moduleExportName fun imported named => ?_
  extract_lets +onlyGivenNames bind
  have bound : Gives bind := .bind gives_bindingIdent fun _ h => .pure (Tree.fresh_part h 0)
  clear_value bind
  split
  · repeat' first | intro _ | with_reducible constructor | split | simp_all
  · extract_lets +onlyGivenNames make
    have made (isType : Bool) (span : Span) (name target : Tree) (hname : fresh name)
        (htarget : fresh target) : fresh (make isType span name target) := by
      unfold make
      split <;> simp_all
    have typed (report : Parse Unit) :
        Gives (typedName start imported bind make checkImportable report) :=
      gives_typedName named bound made
    clear_value make
    repeat' first | intro _ | with_reducible constructor | split | simp_all

omit hr in
@[simp] theorem gives_nameList {one : Parse Tree} (h : Gives one) : Gives (nameList one) := by
  unfold nameList
  repeat' first | intro _ | with_reducible constructor | split | simp_all

omit hr in
@[simp] theorem gives_importHead : Gives importHead := by
  unfold importHead
  repeat' first | intro _ | with_reducible constructor | split | simp_all

@[simp] theorem gives_importDeclaration : Gives (importDeclaration r) := by
  unfold importDeclaration
  repeat' first | intro _ | with_reducible constructor | split | simp_all

omit hr in
@[simp] theorem gives_exportSpecifier {typeOnly : Bool} : Gives (exportSpecifier typeOnly) := by
  unfold exportSpecifier
  repeat' first | intro _ | with_reducible constructor | split | simp_all

@[simp] theorem gives_fromClause : Gives (fromClause r) := by
  unfold fromClause
  repeat' first | intro _ | with_reducible constructor | split | simp_all

@[simp] theorem gives_exportNames {start : Nat} {typeOnly : Bool} :
    Gives (exportNames r start typeOnly) := by
  unfold exportNames
  repeat' first | intro _ | with_reducible constructor | split | simp_all

@[simp] theorem gives_innerDecorators {marks : List Tree} (h : fresh marks) :
    Gives (innerDecorators r marks) := by
  unfold innerDecorators
  repeat' first | intro _ | with_reducible constructor | split | simp_all

@[simp] theorem gives_exportDefault {start : Nat} {marks : List Tree} (h : fresh marks) :
    Gives (exportDefault r start marks) := by
  unfold exportDefault
  repeat' first | intro _ | with_reducible constructor | split | simp_all

@[simp] theorem gives_exportedDeclaration? {start : Nat} {marks : List Tree} (h : fresh marks) :
    Gives (exportedDeclaration? r start marks) := by
  unfold exportedDeclaration?
  repeat' first | intro _ | with_reducible constructor | split | simp_all

@[simp] theorem gives_typedExport? {start : Nat} {marks : List Tree} (h : fresh marks) :
    Gives (typedExport? r start marks) := by
  unfold typedExport?
  repeat' first | intro _ | with_reducible constructor | split | simp_all

@[simp] theorem gives_exportDeclaration {marks : List Tree} (h : fresh marks) :
    Gives (exportDeclaration r marks) := by
  unfold exportDeclaration
  repeat' first | intro _ | with_reducible constructor | split | simp_all

@[simp] theorem gives_statement {declarations topLevel : Bool} :
    Gives (statement r declarations topLevel) := by
  unfold statement
  repeat' first | intro _ | with_reducible constructor | split | simp_all

@[simp] theorem gives_moduleBody : Gives (moduleBody r) := by
  unfold moduleBody
  repeat' first | intro _ | with_reducible constructor | split | simp_all

/-! ## Whole modules -/

omit hr in
/-- All rules read trees as they are read, however deep they may still go. -/
theorem fresh_rules (n : Nat) : (rules n).Fresh := by
  induction n with
  | zero => constructor <;> intros <;> exact .failHere
  | succ n ih =>
    exact {
      assignment := gives_assignment ih
      plainAssignment := gives_plainAssignment ih
      unary := gives_unary ih
      binaryTail := fun _ _ h => gives_binaryTail ih h
      subscripts := fun _ _ _ h => gives_subscripts ih h
      newCallee := fun _ => gives_newOrMember ih
      leftHandSide := gives_leftHandSide ih
      statement := fun _ _ => gives_statement ih
      pattern := gives_bindingPattern ih
      type_ := gives_type ih
      operatorType := gives_operatorType ih
      namespaceDecl := fun _ => gives_namespaceDecl ih
      tagElement := fun _ => gives_tagElementAt ih
      ifStatement := gives_ifStatement ih }

omit hr in
theorem answers_moduleBody :
    Answers (fun t => ∃ shebang, t.shape = .moduleBody shebang) (moduleBody r) := by
  unfold moduleBody
  refine .after fun _ => .after fun text => ?_
  extract_lets +onlyGivenNames goesOn
  have shaped (shebang : Option String) :
      Answers (fun t => ∃ shebang, t.shape = .moduleBody shebang) (goesOn shebang) :=
    .after fun _ => .after fun _ => .pure ⟨shebang, rfl⟩
  split
  · exact .after fun _ => .after fun _ => shaped _
  · exact .after fun _ => shaped _

end RouteManifest.Script.Grammar

namespace RouteManifest

open Script

theorem Script.Tree.unresolved_of_fresh {t : Tree} (h : fresh t) : t.unresolved = true := by
  induction t using Tree.parts_induction with
  | step t ih =>
    obtain ⟨shape, span, parts⟩ := t
    obtain ⟨own, inner⟩ := Tree.fresh_node.mp h
    rw [Tree.unresolved, Bool.and_eq_true]
    constructor
    · cases shape <;> simp_all [Shape.unresolved]
    · rw [Tree.parts_node] at ih
      clear h own
      induction parts with
      | nil => rfl
      | cons p ps each =>
        obtain ⟨first, rest⟩ := fresh_cons.mp inner
        rw [Tree.unresolved.all, Bool.and_eq_true]
        exact ⟨ih p List.mem_cons_self first,
          each (fun q member => ih q (List.mem_cons_of_mem p member)) rest⟩

namespace Routes

/-- Whatever a text and its dialect are: in the module that the text is, no name has a level yet. -/
theorem asRead_ofText {dialect : Dialect} {text : List Char} {m : Module}
    (read : Module.ofText dialect text = .ok m) : AsRead m.tree := by
  unfold Module.ofText at read
  dsimp only at read
  split at read
  · cases read
  · rename_i tree s run
    split at read
    · cases read
    · cases read
      have known : (Grammar.rulesFor text).Fresh := Grammar.fresh_rules _
      have h : fresh tree := (Grammar.gives_moduleBody known).answers.each _ tree s run
      refine ⟨Grammar.answers_moduleBody.each _ tree s run, Tree.unresolved_of_fresh h, ?_⟩
      intro item member typeOnly form
      have own := Tree.startsWith_parts (fresh_iff_mem.mp (Tree.fresh_parts h) item member)
      rw [form] at own
      obtain ⟨items, span, rest, told⟩ := own
      rw [Tree.part, told]
      rfl

/-- A routes file is compiled by the calls that mark routes in the module that it holds. The scopes
around them tell which those are, before any name is resolved. -/
theorem calls_read_iff_marksRoutes {f : RoutesFile} {m : Module} (read : f.read = .ok m) :
    ∃ own, Module.ofText (.ofPath f.path) f.text = .ok own ∧
      (∀ address, (∃ c ∈ calls m.tree, c.address = address) ↔
        ∃ call name, MarksRoutes own.tree address call name) ∧
      ∀ s : Setting, (∃ plan, ((s.planModule m.tree).run.run Session.fresh).1 = .ok plan) ↔
        ∀ address call name, MarksRoutes own.tree address call name →
          ∃ after, m.tree.at? address = some after ∧ s.AcceptsCall after := by
  obtain ⟨own, parsed, rfl⟩ := read_eq_ok_iff.mp read
  have asRead := asRead_ofText parsed
  exact ⟨own, parsed, fun _ => mem_calls_resolve_iff asRead, planModule_resolve_ok_iff asRead⟩

end Routes

end RouteManifest
