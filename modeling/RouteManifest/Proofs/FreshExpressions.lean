import RouteManifest.Proofs.FreshTypes

/-!
# Functions, classes and expressions as they are read

Their readers are given trees that were read before, such as decorators, keys and left sides: what
they give is as fresh as those. Where the branches of a reader go on with the same steps, those are
looked at once.
-/

namespace RouteManifest.Script.Grammar

/-- The decorators before a member are its only trees before its key. -/
instance : HasTrees MemberHead := ⟨fun head => fresh head.marks⟩

instance : HasTrees ParenItem := ⟨fun item => fresh item.tree⟩

@[simp] theorem fresh_memberHead {head : MemberHead} : fresh head ↔ fresh head.marks := Iff.rfl

@[simp] theorem fresh_parenItem {item : ParenItem} : fresh item ↔ fresh item.tree := Iff.rfl

variable {r : Rules} (hr : r.Fresh)

include hr

/-! ## Functions and object literals -/

@[simp] theorem gives_blockBody {topLevel : Bool} : Gives (blockBody r topLevel) := by
  unfold blockBody
  repeat' first | intro _ | with_reducible constructor | split | simp_all

@[simp] theorem gives_block : Gives (block r) := by
  unfold block
  repeat' first | intro _ | with_reducible constructor | split | simp_all

@[simp] theorem gives_functionBody {flags : FunctionFlags} {simple : Bool} :
    Gives (functionBody r flags simple) := by
  unfold functionBody
  repeat' first | intro _ | with_reducible constructor | split | simp_all

@[simp] theorem gives_arrowBody {isAsync simple : Bool} : Gives (arrowBody r isAsync simple) := by
  unfold arrowBody
  repeat' first | intro _ | with_reducible constructor | split | simp_all

omit hr in
@[simp] theorem fresh_parameterTargets {items : List Tree} (h : fresh items) :
    fresh (parameterTargets items) := fresh_map (fun _ inside => Tree.fresh_part inside 1) h

@[simp] theorem gives_functionRest {marks : List Tree} {start : Nat} {list : Parse (List Tree)}
    {flags : FunctionFlags} (marked : fresh marks) (listed : Gives list) :
    Gives (functionRest r marks start list flags) := by
  unfold functionRest
  repeat' first | intro _ | with_reducible constructor | split | simp_all

@[simp] theorem gives_functionFrom {start : Nat} {marks : List Tree}
    {isAsync isExpr nameNeeded : Bool} (h : fresh marks) :
    Gives (functionFrom r start marks isAsync isExpr nameNeeded) := by
  unfold functionFrom
  repeat' first | intro _ | with_reducible constructor | split | simp_all

@[simp] theorem gives_functionDecl {marks : List Tree} {isAsync : Bool} (h : fresh marks) :
    Gives (functionDecl r marks isAsync) := by
  unfold functionDecl
  repeat' first | intro _ | with_reducible constructor | split | simp_all

@[simp] theorem gives_functionExpr {isAsync : Bool} : Gives (functionExpr r isAsync) := by
  unfold functionExpr
  repeat' first | intro _ | with_reducible constructor | split | simp_all

@[simp] theorem gives_defaultFunction {start : Nat} {marks : List Tree} {isAsync : Bool}
    (h : fresh marks) : Gives (defaultFunction r start marks isAsync) := by
  unfold defaultFunction
  repeat' first | intro _ | with_reducible constructor | split | simp_all

@[simp] theorem gives_getterParameters {keySpan : Span} : Gives (getterParameters r keySpan) := by
  unfold getterParameters
  repeat' first | intro _ | with_reducible constructor | split | simp_all

@[simp] theorem gives_setterParameters {keySpan : Span} : Gives (setterParameters r keySpan) := by
  unfold setterParameters
  repeat' first | intro _ | with_reducible constructor | split | simp_all

@[simp] theorem gives_methodProp {start : Nat} {key : Tree} {flags : FunctionFlags}
    (h : fresh key) : Gives (methodProp r start key flags) := by
  unfold methodProp
  repeat' first | intro _ | with_reducible constructor | split | simp_all

@[simp] theorem gives_accessorProp {start : Nat} {isGetter : Bool} :
    Gives (accessorProp r start isGetter) := by
  unfold accessorProp
  repeat' first | intro _ | with_reducible constructor | split | simp_all
  exact Tree.fresh_part (Tree.fresh_of_parts_eq ‹_› (Tree.fresh_part ‹_› _)) _

@[simp] theorem gives_objectMember : Gives (objectMember r) := by
  unfold objectMember
  repeat' first | intro _ | with_reducible constructor | split | simp_all

@[simp] theorem gives_objectLiteral : Gives (objectLiteral r) := by
  unfold objectLiteral
  repeat' first | intro _ | with_reducible constructor | split | simp_all

/-! ## Classes -/

@[simp] theorem gives_memberName : Gives (memberName r) := by
  unfold memberName
  repeat' first | intro _ | with_reducible constructor | split | simp_all

@[simp] theorem gives_classMethod {head : MemberHead} {key : Tree} {kind : MethodKind}
    {flags : FunctionFlags} {list : Parse (List Tree)} (marked : fresh head.marks)
    (named : fresh key) (listed : Gives list) : Gives (classMethod r head key kind flags list) := by
  unfold classMethod
  repeat' first | intro _ | with_reducible constructor | split | simp_all

@[simp] theorem gives_classField {head : MemberHead} {key : Tree} (marked : fresh head.marks)
    (named : fresh key) : Gives (classField r head key) := by
  unfold classField
  repeat' first | intro _ | with_reducible constructor | split | simp_all

@[simp] theorem gives_memberNamed? {head : MemberHead} {word : Span → Tree} {span : Span}
    {asi braceEnds : Bool} (marked : fresh head.marks) (named : ∀ span, fresh (word span)) :
    Gives (memberNamed? r head word span asi braceEnds) := by
  unfold memberNamed?
  repeat' first | intro _ | with_reducible constructor | split | simp_all

@[simp] theorem gives_classConstructor {head : MemberHead} {key : Tree} {modifierSpan : Option Span}
    (named : fresh key) : Gives (classConstructor r head key modifierSpan) := by
  unfold classConstructor
  repeat' first | intro _ | with_reducible constructor | split | simp_all

@[simp] theorem gives_staticBlock {start : Nat} : Gives (staticBlock r start) := by
  unfold staticBlock
  repeat' first | intro _ | with_reducible constructor | split | simp_all

set_option linter.tactic.unusedName false in
@[simp] theorem gives_memberFromModifiers {head : MemberHead} {declareSpan staticSpan : Option Span}
    (marked : fresh head.marks) : Gives (memberFromModifiers r head declareSpan staticSpan) := by
  unfold memberFromModifiers
  repeat' first
    | intro _
    | with_reducible refine Gives.Continues.each (by assumption) _ ?_
    -- The steps below would copy what branches share into each of them, so this comes first.
    | (extract_lets -underBinder +onlyGivenNames k
       first
       | (refine Gives.joined k ⟨fun _ _ => ?_⟩ fun _ => ?_
          dsimp -zeta only [k]
          clear k
          rotate_left
          clear_value k)
       | subst k)
    | with_reducible constructor
    | split
    | simp_all

@[simp] theorem gives_classMember : Gives (classMember r) := by
  unfold classMember
  repeat' first | intro _ | with_reducible constructor | split | simp_all

@[simp] theorem gives_classMembers : Gives (classMembers r) := by
  unfold classMembers
  repeat' first | intro _ | with_reducible constructor | split | simp_all

@[simp] theorem gives_baseClass : Gives (baseClass r) := by
  unfold baseClass
  repeat' first | intro _ | with_reducible constructor | split | simp_all

set_option linter.tactic.unusedName false in
@[simp] theorem gives_classFrom {start : Nat} {marks : List Tree} {isAbstract nameNeeded : Bool}
    (h : fresh marks) : Gives (classFrom r start marks isAbstract nameNeeded) := by
  unfold classFrom
  repeat' first
    | intro _
    | with_reducible refine Gives.Continues.each (by assumption) _ ?_
    | (extract_lets -underBinder +onlyGivenNames k
       first
       | (refine Gives.joined k ⟨fun _ _ => ?_⟩ fun _ => ?_
          dsimp -zeta only [k]
          clear k
          rotate_left
          clear_value k)
       | subst k)
    | with_reducible constructor
    | split
    | simp_all

@[simp] theorem gives_classDecl {start classStart : Nat} {marks : List Tree} {isAbstract : Bool}
    (h : fresh marks) : Gives (classDecl r start classStart marks isAbstract) := by
  unfold classDecl
  repeat' first | intro _ | with_reducible constructor | split | simp_all

@[simp] theorem gives_classExpr {start : Nat} {marks : List Tree} (h : fresh marks) :
    Gives (classExpr r start marks) := by
  unfold classExpr
  repeat' first | intro _ | with_reducible constructor | split | simp_all

@[simp] theorem gives_defaultClass {start classStart : Nat} {marks : List Tree} {isAbstract : Bool}
    (h : fresh marks) : Gives (defaultClass r start classStart marks isAbstract) := by
  unfold defaultClass
  repeat' first | intro _ | with_reducible constructor | split | simp_all

/-! ## Expressions -/

@[simp] theorem gives_template {tagged : Bool} : Gives (template r tagged) := by
  unfold template
  refine .bind .any fun _ _ => .bind .any fun _ _ => ?_
  refine .bind (gives_templateParts (.withIn (gives_expression hr))) fun _ _ => ?_
  repeat' first | intro _ | with_reducible constructor | split | simp_all

@[simp] theorem gives_taggedTemplate {tag types : Tree} (htag : fresh tag) (htypes : fresh types) :
    Gives (taggedTemplate r tag types) := by
  unfold taggedTemplate
  repeat' first | intro _ | with_reducible constructor | split | simp_all

omit hr in
@[simp] theorem gives_itemsAsParameters {items : List ParenItem} {trailing : Option Span}
    (h : fresh items) : Gives (itemsAsParameters items trailing) := by
  unfold itemsAsParameters
  repeat' first | intro _ | with_reducible constructor | split | simp_all

omit hr in
@[simp] theorem fresh_arrowNode {span : Span} {isAsync : Bool} {targets : List Tree}
    {body types result : Tree} (h : fresh targets) (hbody : fresh body) (htypes : fresh types)
    (hresult : fresh result) : fresh (arrowNode span isAsync targets body types result) := by
  simp_all [arrowNode]

@[simp] theorem gives_assignmentTail {start : Nat} {left : Tree} (h : fresh left) :
    Gives (assignmentTail r start left) := by
  unfold assignmentTail
  repeat' first | intro _ | with_reducible constructor | split | simp_all

@[simp] theorem gives_binaryExpr : Gives (binaryExpr r) := by
  unfold binaryExpr
  repeat' first | intro _ | with_reducible constructor | split | simp_all

@[simp] theorem gives_conditionalTail {start : Nat} {test : Tree} {includesIn : Bool}
    (h : fresh test) : Gives (conditionalTail r start test includesIn) := by
  unfold conditionalTail
  repeat' first | intro _ | with_reducible constructor | split | simp_all

@[simp] theorem gives_questionInParens {start : Nat} {item : Tree} (h : fresh item) :
    Gives (questionInParens r start item) := by
  unfold questionInParens
  repeat' first | intro _ | with_reducible constructor | split | simp_all

@[simp] theorem gives_typedItem {patternStart : Nat} {item : Tree} {optional : Bool}
    (h : fresh item) : Gives (typedItem r patternStart item optional) := by
  unfold typedItem
  repeat' first | intro _ | with_reducible constructor | split | simp_all

set_option linter.tactic.unusedName false in
@[simp] theorem gives_parenItems : Gives (parenItems r) := by
  unfold parenItems
  repeat' first
    | intro _
    | with_reducible refine Gives.Continues.each (by assumption) _ ?_
    | (extract_lets -underBinder +onlyGivenNames k
       first
       | (refine Gives.joined k ⟨fun _ _ => ?_⟩ fun _ => ?_
          dsimp -zeta only [k]
          clear k
          rotate_left
          clear_value k)
       | subst k)
    | with_reducible constructor
    | split
    | simp_all

@[simp] theorem gives_arrowInConditional {start : Nat} {isAsync : Bool} {items : List ParenItem}
    (h : fresh items) : Gives (arrowInConditional r start isAsync items) := by
  unfold arrowInConditional
  repeat' first | intro _ | with_reducible constructor | split | simp_all

@[simp] theorem gives_arrowAfterParens {start : Nat} {canBeArrow isAsync : Bool}
    {items : List ParenItem} {trailing : Option Span} {result : Tree} (h : fresh items)
    (hresult : fresh result) :
    Gives (arrowAfterParens r start canBeArrow isAsync items trailing result) := by
  unfold arrowAfterParens
  repeat' first | intro _ | with_reducible constructor | split | simp_all

set_option linter.tactic.unusedName false in
@[simp] theorem gives_parenthesized {canBeArrow : Bool} {asyncSpan : Option Span} :
    Gives (parenthesized r canBeArrow asyncSpan) := by
  unfold parenthesized
  repeat' first
    | intro _
    | with_reducible refine Gives.Continues.each (by assumption) _ ?_
    | (extract_lets -underBinder +onlyGivenNames k
       first
       | (refine Gives.joined k ⟨fun _ _ => ?_⟩ fun _ => ?_
          dsimp -zeta only [k]
          clear k
          rotate_left
          clear_value k)
       | (have items : fresh (k : List Tree) := by
            subst k
            simp_all
          clear_value k)
       | subst k)
    | with_reducible constructor
    | split
    | simp_all

@[simp] theorem gives_genericAsyncArrow {start : Nat} : Gives (genericAsyncArrow r start) := by
  unfold genericAsyncArrow
  repeat' first | intro _ | with_reducible constructor | split | simp_all

@[simp] theorem gives_arrayLiteral : Gives (arrayLiteral r) := by
  unfold arrayLiteral
  repeat' first | intro _ | with_reducible constructor | split | simp_all

omit hr in
@[simp] theorem gives_regexLiteral : Gives regexLiteral := by
  unfold regexLiteral
  repeat' first | intro _ | with_reducible constructor | split | simp_all

@[simp] theorem gives_nameOrArrow {start : Nat} {canBeArrow : Bool} :
    Gives (nameOrArrow r start canBeArrow) := by
  unfold nameOrArrow
  repeat' first | intro _ | with_reducible constructor | split | simp_all

@[simp] theorem gives_primary : Gives (primary r) := by
  unfold primary
  repeat' first | intro _ | with_reducible constructor | split | simp_all

@[simp] theorem gives_instantiation? : Gives (instantiation? r) := by
  unfold instantiation?
  repeat' first | intro _ | with_reducible constructor | split | simp_all

omit hr in
@[simp] theorem gives_withTypes {e types : Tree} {start : Nat} (h : fresh e)
    (htypes : fresh types) : Gives (withTypes e types start) := by
  unfold withTypes
  repeat' first | intro _ | with_reducible constructor | split | simp_all

@[simp] theorem gives_genericTail? {start : Nat} {callee : Tree} {noCalls : Bool}
    (h : fresh callee) : Gives (genericTail? r start callee noCalls) := by
  unfold genericTail?
  repeat' first | intro _ | with_reducible constructor | split | simp_all

omit hr in
@[simp] theorem gives_superMember {callee property : Tree} {span : Span} {noCalls chained : Bool}
    (h : fresh callee) (hproperty : fresh property) :
    Gives (superMember callee property span noCalls chained) := by
  unfold superMember
  repeat' first | intro _ | with_reducible constructor | split | simp_all

set_option linter.tactic.unusedName false in
@[simp] theorem gives_subscript {start : Nat} {callee : Tree} {noCalls noComputed : Bool}
    (h : fresh callee) : Gives (subscript r start callee noCalls noComputed) := by
  unfold subscript
  repeat' first
    | intro _
    | with_reducible refine Gives.Continues.each (by assumption) _ ?_
    | (extract_lets -underBinder +onlyGivenNames k
       first
       | (refine Gives.joined k ⟨fun _ _ => ?_⟩ fun _ => ?_
          dsimp -zeta only [k]
          clear k
          rotate_left
          clear_value k)
       | subst k)
    | with_reducible constructor
    | split
    | simp_all

@[simp] theorem gives_subscripts {callee : Tree} {noCalls noComputed : Bool} (h : fresh callee) :
    Gives (subscripts r callee noCalls noComputed) := by
  unfold subscripts
  repeat' first | intro _ | with_reducible constructor | split | simp_all

@[simp] theorem gives_importTail {start : Nat} {noCalls : Bool} :
    Gives (importTail r start noCalls) := by
  unfold importTail
  repeat' first | intro _ | with_reducible constructor | split | simp_all

@[simp] theorem gives_newOrMember {isNew : Bool} : Gives (newOrMember r isNew) := by
  unfold newOrMember
  repeat' first | intro _ | with_reducible constructor | split | simp_all

@[simp] theorem gives_leftHandSide : Gives (leftHandSide r) := by
  unfold leftHandSide
  repeat' first | intro _ | with_reducible constructor | split | simp_all

@[simp] theorem gives_typeAfterToken : Gives (typeAfterToken r) := by
  unfold typeAfterToken
  repeat' first | intro _ | with_reducible constructor | split | simp_all

set_option linter.tactic.unusedName false in
@[simp] theorem gives_binaryStep {left : Tree} {minPrec : Nat} (h : fresh left) :
    Gives (binaryStep r left minPrec) := by
  unfold binaryStep
  repeat' first
    | intro _
    | with_reducible refine Gives.Continues.each (by assumption) _ ?_
    | (extract_lets -underBinder +onlyGivenNames k
       first
       | (refine Gives.joined k ⟨fun _ _ => ?_⟩ fun _ => ?_
          dsimp -zeta only [k]
          clear k
          rotate_left
          clear_value k)
       | subst k)
    | with_reducible constructor
    | split
    | simp_all

@[simp] theorem gives_binaryTail {left : Tree} {minPrec : Nat} (h : fresh left) :
    Gives (binaryTail r left minPrec) := by
  unfold binaryTail
  repeat' first | intro _ | with_reducible constructor | split | simp_all

@[simp] theorem gives_awaitExpr {started : Option Nat} : Gives (awaitExpr r started) := by
  unfold awaitExpr
  repeat' first | intro _ | with_reducible constructor | split | simp_all

@[simp] theorem gives_unary : Gives (unary r) := by
  unfold unary
  repeat' first | intro _ | with_reducible constructor | split | simp_all

@[simp] theorem gives_yieldExpr : Gives (yieldExpr r) := by
  unfold yieldExpr
  repeat' first | intro _ | with_reducible constructor | split | simp_all

@[simp] theorem gives_conditional : Gives (conditional r) := by
  unfold conditional
  repeat' first | intro _ | with_reducible constructor | split | simp_all

@[simp] theorem gives_genericArrow? : Gives (genericArrow? r) := by
  unfold genericArrow?
  repeat' first | intro _ | with_reducible constructor | split | simp_all

@[simp] theorem gives_plainAssignment : Gives (plainAssignment r) := by
  unfold plainAssignment
  repeat' first | intro _ | with_reducible constructor | split | simp_all

@[simp] theorem gives_assignment : Gives (assignment r) := by
  unfold assignment
  repeat' first | intro _ | with_reducible constructor | split | simp_all

end RouteManifest.Script.Grammar
