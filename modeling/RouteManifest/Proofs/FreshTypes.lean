import RouteManifest.Proofs.FreshTrees
import RouteManifest.Script.Grammar.Module

/-!
# Names, patterns and types as they are read

The readers of names, lists, patterns, tags and types give trees as they are read, if the rules do
that are defined later. Each of the proofs follows its reader: what it is put together of says
which case of `Gives` is next, and the readers that it calls are known by their own lemmas.
-/

namespace RouteManifest.Script.Grammar

/-- The rules give trees as they are read. -/
structure Rules.Fresh (r : Rules) : Prop where
  assignment : Gives r.assignment
  plainAssignment : Gives r.plainAssignment
  unary : Gives r.unary
  binaryTail (left : Tree) (minPrec : Nat) (h : fresh left) : Gives (r.binaryTail left minPrec)
  subscripts (callee : Tree) (noCalls noComputed : Bool) (h : fresh callee) :
    Gives (r.subscripts callee noCalls noComputed)
  newCallee (isNew : Bool) : Gives (r.newCallee isNew)
  leftHandSide : Gives r.leftHandSide
  statement (declarations topLevel : Bool) : Gives (r.statement declarations topLevel)
  pattern : Gives r.pattern
  type_ : Gives r.type_
  operatorType : Gives r.operatorType
  namespaceDecl (start : Nat) : Gives (r.namespaceDecl start)
  tagElement (start : Nat) : Gives (r.tagElement start)
  ifStatement : Gives r.ifStatement

attribute [simp] Rules.Fresh.assignment Rules.Fresh.plainAssignment Rules.Fresh.unary
  Rules.Fresh.binaryTail Rules.Fresh.subscripts Rules.Fresh.newCallee Rules.Fresh.leftHandSide
  Rules.Fresh.statement Rules.Fresh.pattern Rules.Fresh.type_ Rules.Fresh.operatorType
  Rules.Fresh.namespaceDecl Rules.Fresh.tagElement Rules.Fresh.ifStatement

/-! ## Names and literals -/

@[simp] theorem fresh_identNode {name : String} {span : Span} : fresh (identNode name span) := by
  simp_all [identNode]

@[simp] theorem fresh_bindingIdentNode {name : Tree} (h : fresh name) :
    fresh (bindingIdentNode name) := by
  simp_all [bindingIdentNode]

@[simp] theorem gives_identName : Gives identName := by
  unfold identName
  repeat' first | intro _ | with_reducible constructor | split | simp_all

@[simp] theorem gives_ident {withYield : Bool} : Gives (ident withYield) := by
  unfold ident
  repeat' first | intro _ | with_reducible constructor | split | simp_all

@[simp] theorem gives_identRef : Gives identRef := by
  unfold identRef
  repeat' first | intro _ | with_reducible constructor | split | simp_all

@[simp] theorem gives_bindingIdent : Gives bindingIdent := by
  unfold bindingIdent
  repeat' first | intro _ | with_reducible constructor | split | simp_all

@[simp] theorem gives_bindingIdent? : Gives bindingIdent? := by
  unfold bindingIdent?
  repeat' first | intro _ | with_reducible constructor | split | simp_all

@[simp] theorem gives_privateName : Gives privateName := by
  unfold privateName
  repeat' first | intro _ | with_reducible constructor | split | simp_all

@[simp] theorem gives_privateOrIdentName : Gives privateOrIdentName := by
  unfold privateOrIdentName
  repeat' first | intro _ | with_reducible constructor | split | simp_all

@[simp] theorem gives_literal : Gives literal := by
  unfold literal
  repeat' first | intro _ | with_reducible constructor | split | simp_all

@[simp] theorem gives_moduleExportName : Gives moduleExportName := by
  unfold moduleExportName
  repeat' first | intro _ | with_reducible constructor | split | simp_all

section

variable {r : Rules} (hr : r.Fresh)

include hr

/-! ## Lists in brackets -/

@[simp] theorem gives_sequenceAfter {start : Nat} {first : Tree} (h : fresh first) :
    Gives (sequenceAfter r start first) := by
  unfold sequenceAfter
  repeat' first | intro _ | with_reducible constructor | split | simp_all

@[simp] theorem gives_expression : Gives (expression r) := by
  unfold expression
  repeat' first | intro _ | with_reducible constructor | split | simp_all

@[simp] theorem gives_propertyKey : Gives (propertyKey r) := by
  unfold propertyKey
  repeat' first | intro _ | with_reducible constructor | split | simp_all

@[simp] theorem gives_typeClause {eatColon : Bool} {start : Nat} :
    Gives (typeClause r eatColon start) := by
  unfold typeClause
  repeat' first | intro _ | with_reducible constructor | split | simp_all

@[simp] theorem gives_typeClause? : Gives (typeClause? r) := by
  unfold typeClause?
  repeat' first | intro _ | with_reducible constructor | split | simp_all

@[simp] theorem gives_spreadable : Gives (spreadable r) := by
  unfold spreadable
  repeat' first | intro _ | with_reducible constructor | split | simp_all

@[simp] theorem gives_arguments {ofImport : Bool} : Gives (arguments r ofImport) := by
  unfold arguments
  repeat' first | intro _ | with_reducible constructor | split | simp_all

omit hr in
@[simp] theorem gives_delimited {kind : ListEnd} {lenient : Bool} {element : Parse Tree}
    (h : Gives element) : Gives (delimited kind lenient element) := by
  unfold delimited
  repeat' first | intro _ | with_reducible constructor | split | simp_all

@[simp] theorem gives_typeArguments : Gives (typeArguments r) := by
  unfold typeArguments
  repeat' first | intro _ | with_reducible constructor | split | simp_all

@[simp] theorem gives_typeArgumentsInType : Gives (typeArgumentsInType r) := by
  unfold typeArgumentsInType
  repeat' first | intro _ | with_reducible constructor | split | simp_all

@[simp] theorem gives_typeAfter? {t : Token} : Gives (typeAfter? r t) := by
  unfold typeAfter?
  repeat' first | intro _ | with_reducible constructor | split | simp_all

@[simp] theorem gives_typeAfter {t : Token} : Gives (typeAfter r t) := by
  unfold typeAfter
  repeat' first | intro _ | with_reducible constructor | split | simp_all

@[simp] theorem gives_typeParameter {variance const : Bool} :
    Gives (typeParameter r variance const) := by
  unfold typeParameter
  repeat' first | intro _ | with_reducible constructor | split | simp_all

@[simp] theorem gives_typeParameters {variance const : Bool} :
    Gives (typeParameters r variance const) := by
  unfold typeParameters
  repeat' first | intro _ | with_reducible constructor | split | simp_all

@[simp] theorem gives_typeParameters? {variance const : Bool} :
    Gives (typeParameters? r variance const) := by
  unfold typeParameters?
  repeat' first | intro _ | with_reducible constructor | split | simp_all

@[simp] theorem gives_decorator : Gives (decorator r) := by
  unfold decorator
  repeat' first | intro _ | with_reducible constructor | split | simp_all

@[simp] theorem gives_decorators {beforeExport : Bool} : Gives (decorators r beforeExport) := by
  unfold decorators
  repeat' first | intro _ | with_reducible constructor | split | simp_all

/-! ## Patterns and parameters -/

@[simp] theorem gives_bindingElement : Gives (bindingElement r) := by
  unfold bindingElement
  repeat' first | intro _ | with_reducible constructor | split | simp_all

@[simp] theorem gives_arrayPattern : Gives (arrayPattern r) := by
  unfold arrayPattern
  repeat' first | intro _ | with_reducible constructor | split | simp_all

@[simp] theorem gives_patternProperty : Gives (patternProperty r) := by
  unfold patternProperty
  repeat' first | intro _ | with_reducible constructor | split | simp_all

omit hr in
@[simp] theorem gives_braced {member : Parse Tree} (h : Gives member) : Gives (braced member) := by
  unfold braced
  repeat' first | intro _ | with_reducible constructor | split | simp_all

@[simp] theorem gives_objectPattern : Gives (objectPattern r) := by
  unfold objectPattern
  repeat' first | intro _ | with_reducible constructor | split | simp_all

@[simp] theorem gives_bindingPattern : Gives (bindingPattern r) := by
  unfold bindingPattern
  repeat' first | intro _ | with_reducible constructor | split | simp_all

@[simp] theorem gives_withAnnotation {p : Tree} {start : Nat} (h : fresh p) :
    Gives <| withAnnotation r p start := by
  unfold withAnnotation
  repeat' first | intro _ | with_reducible constructor | split | simp_all

@[simp] theorem gives_parameterPattern : Gives (parameterPattern r) := by
  unfold parameterPattern
  repeat' first | intro _ | with_reducible constructor | split | simp_all
  exact fresh_of_markOptional_eq ‹_› ‹_›

@[simp] theorem gives_restParameter {start : Nat} {initializerPassed : Bool} :
    Gives (restParameter r start initializerPassed) := by
  unfold restParameter
  repeat' first | intro _ | with_reducible constructor | split | simp_all

@[simp] theorem gives_parameterList {one : Nat → Tree → Parse Tree} {rest : Nat → Parse Tree}
    (hone : ∀ start marks, fresh marks → Gives (one start marks))
    (hrest : ∀ start, Gives (rest start)) : Gives (parameterList one rest r) := by
  unfold parameterList
  repeat' first | intro _ | with_reducible constructor | split | simp_all

@[simp] theorem gives_parameters : Gives (parameters r) := by
  unfold parameters
  apply gives_parameterList hr
  all_goals repeat' first | intro _ | with_reducible constructor | split | simp_all

@[simp] theorem gives_constructorParameters : Gives (constructorParameters r) := by
  unfold constructorParameters
  apply gives_parameterList hr
  all_goals repeat' first | intro _ | with_reducible constructor | split | simp_all

omit hr in
@[simp] theorem fresh_invalidAt {span : Span} : fresh (invalidAt span) := by
  simp_all [invalidAt]

omit hr in
@[simp] theorem gives_toPattern {use : PatternUse} {e : Tree} {fuel : Nat} (h : fresh e) :
    Gives (toPattern use e fuel) := by
  induction fuel generalizing use e with
  | zero => exact .pure h
  | succ fuel ih =>
    unfold toPattern
    repeat' first | intro _ | with_reducible constructor | split | simp_all

omit hr in
@[simp] theorem gives_asPattern {use : PatternUse} {e : Tree} (h : fresh e) :
    Gives (asPattern use e) := by
  unfold asPattern
  repeat' first | intro _ | with_reducible constructor | split | simp_all

/-! ## Elements in tags -/

omit hr in
@[simp] theorem gives_tagIdent : Gives tagIdent := by
  unfold tagIdent
  repeat' first | intro _ | with_reducible constructor | split | simp_all

omit hr in
@[simp] theorem gives_namespacedName : Gives namespacedName := by
  unfold namespacedName
  repeat' first | intro _ | with_reducible constructor | split | simp_all

omit hr in
@[simp] theorem gives_elementName : Gives elementName := by
  unfold elementName
  repeat' first | intro _ | with_reducible constructor | split | simp_all

@[simp] theorem gives_container : Gives (container r) := by
  unfold container
  repeat' first | intro _ | with_reducible constructor | split | simp_all

@[simp] theorem gives_attributeValue : Gives (attributeValue r) := by
  unfold attributeValue
  repeat' first | intro _ | with_reducible constructor | split | simp_all

@[simp] theorem gives_tagAttribute : Gives (tagAttribute r) := by
  unfold tagAttribute
  repeat' first | intro _ | with_reducible constructor | split | simp_all

@[simp] theorem gives_openingTag {start : Nat} : Gives (openingTag r start) := by
  unfold openingTag
  repeat' first | intro _ | with_reducible constructor | split | simp_all

omit hr in
@[simp] theorem gives_closingTag {start : Nat} : Gives (closingTag start) := by
  unfold closingTag
  repeat' first | intro _ | with_reducible constructor | split | simp_all

@[simp] theorem gives_tagContents : Gives (tagContents r) := by
  unfold tagContents
  repeat' first | intro _ | with_reducible constructor | split | simp_all

@[simp] theorem gives_tagElementAt {start : Nat} : Gives (tagElementAt r start) := by
  unfold tagElementAt
  repeat' first | intro _ | with_reducible constructor | split | simp_all

/-! ## Types -/

omit hr in
@[simp] theorem gives_templateElement {tagged : Bool} : Gives (templateElement tagged) := by
  unfold templateElement
  repeat' first | intro _ | with_reducible constructor | split | simp_all

omit hr in
@[simp] theorem gives_templateParts {hole : Parse Tree} {tagged : Bool} (h : Gives hole) :
    Gives (templateParts hole tagged) := by
  unfold templateParts
  repeat' first | intro _ | with_reducible constructor | split | simp_all

omit hr in
@[simp] theorem gives_entityName {reservedAllowed : Bool} : Gives (entityName reservedAllowed) := by
  unfold entityName
  repeat' first | intro _ | with_reducible constructor | split | simp_all

@[simp] theorem gives_typeReference : Gives (typeReference r) := by
  unfold typeReference
  repeat' first | intro _ | with_reducible constructor | split | simp_all

@[simp] theorem gives_signatureParameters : Gives (signatureParameters r) := by
  unfold signatureParameters
  repeat' first | intro _ | with_reducible constructor | split | simp_all

@[simp] theorem gives_resultAnnotation {t : Token} : Gives <| resultAnnotation r t := by
  unfold resultAnnotation
  repeat' first | intro _ | with_reducible constructor | split | simp_all

@[simp] theorem gives_resultAnnotation? : Gives <| resultAnnotation? r := by
  unfold resultAnnotation?
  repeat' first | intro _ | with_reducible constructor | split | simp_all

@[simp] theorem gives_signature : Gives (signature r) := by
  unfold signature
  repeat' first | intro _ | with_reducible constructor | split | simp_all

@[simp] theorem gives_signatureMember {constructs : Bool} :
    Gives (signatureMember r constructs) := by
  unfold signatureMember
  repeat' first | intro _ | with_reducible constructor | split | simp_all

@[simp] theorem gives_indexSignature? {start : Nat} {isReadonly isStatic : Bool} :
    Gives (indexSignature? r start isReadonly isStatic) := by
  unfold indexSignature?
  repeat' first | intro _ | with_reducible constructor | split | simp_all

@[simp] theorem gives_memberKey : Gives (memberKey r) := by
  unfold memberKey
  repeat' first | intro _ | with_reducible constructor | split | simp_all

@[simp] theorem gives_propertyOrMethodSignature {start : Nat} {isReadonly : Bool} :
    Gives (propertyOrMethodSignature r start isReadonly) := by
  unfold propertyOrMethodSignature
  repeat' first | intro _ | with_reducible constructor | split | simp_all

@[simp] theorem gives_accessorSignature {isReadonly : Bool} :
    Gives (accessorSignature r isReadonly) := by
  unfold accessorSignature
  repeat' first | intro _ | with_reducible constructor | split | simp_all
  all_goals exact Tree.fresh_of_parts_eq ‹_› ‹_›

@[simp] theorem gives_typeMember : Gives (typeMember r) := by
  unfold typeMember
  repeat' first | intro _ | with_reducible constructor | split | simp_all

@[simp] theorem gives_typeMembers : Gives (typeMembers r) := by
  unfold typeMembers
  repeat' first | intro _ | with_reducible constructor | split | simp_all

@[simp] theorem gives_typeLiteral : Gives (typeLiteral r) := by
  unfold typeLiteral
  repeat' first | intro _ | with_reducible constructor | split | simp_all

@[simp] theorem gives_mappedType : Gives (mappedType r) := by
  unfold mappedType
  repeat' first | intro _ | with_reducible constructor | split | simp_all

omit hr in
@[simp] theorem gives_tupleLabel? : Gives tupleLabel? := by
  unfold tupleLabel?
  repeat' first | intro _ | with_reducible constructor | split | simp_all

@[simp] theorem gives_tupleElement : Gives (tupleElement r) := by
  unfold tupleElement
  repeat' first | intro _ | with_reducible constructor | split | simp_all

@[simp] theorem gives_tupleType : Gives (tupleType r) := by
  unfold tupleType
  repeat' first | intro _ | with_reducible constructor | split | simp_all

@[simp] theorem gives_importType : Gives (importType r) := by
  unfold importType
  repeat' first | intro _ | with_reducible constructor | split | simp_all

@[simp] theorem gives_typeQuery : Gives (typeQuery r) := by
  unfold typeQuery
  repeat' first | intro _ | with_reducible constructor | split | simp_all

@[simp] theorem gives_thisPredicate {start : Nat} {asserts : Bool} {this : Tree} (h : fresh this) :
    Gives (thisPredicate r start asserts this) := by
  unfold thisPredicate
  repeat' first | intro _ | with_reducible constructor | split | simp_all

omit hr in
@[simp] theorem gives_thisType : Gives thisType := by
  unfold thisType
  repeat' first | intro _ | with_reducible constructor | split | simp_all

@[simp] theorem gives_namedType {w : String} : Gives (namedType r w) := by
  unfold namedType
  repeat' first | intro _ | with_reducible constructor | split | simp_all

@[simp] theorem gives_primaryType : Gives (primaryType r) := by
  unfold primaryType
  repeat' first | intro _ | with_reducible constructor | split | simp_all

@[simp] theorem gives_arrayType : Gives (arrayType r) := by
  unfold arrayType
  repeat' first | intro _ | with_reducible constructor | split | simp_all

omit hr in
@[simp] theorem gives_joinedType {shape : Shape} {op : String} {one : Parse Tree} (h : Gives one)
    (own : ∀ parts, shape.startsWith parts) : Gives (joinedType shape op one) := by
  unfold joinedType
  repeat' first | intro _ | with_reducible constructor | split | simp_all

@[simp] theorem gives_unionType : Gives (unionType r) := by
  unfold unionType
  have intersection : Gives (joinedType .intersectionType "&" r.operatorType) :=
    gives_joinedType hr.operatorType fun _ => trivial
  exact gives_joinedType intersection fun _ => trivial

@[simp] theorem gives_functionType {constructs : Bool} : Gives (functionType r constructs) := by
  unfold functionType
  repeat' first | intro _ | with_reducible constructor | split | simp_all

@[simp] theorem gives_nonConditionalType : Gives (nonConditionalType r) := by
  unfold nonConditionalType
  repeat' first | intro _ | with_reducible constructor | split | simp_all

@[simp] theorem gives_inferType : Gives (inferType r) := by
  unfold inferType
  repeat' first | intro _ | with_reducible constructor | split | simp_all

@[simp] theorem gives_operatorType : Gives (operatorType r) := by
  unfold operatorType
  repeat' first | intro _ | with_reducible constructor | split | simp_all

@[simp] theorem gives_type : Gives (type r) := by
  unfold type
  repeat' first | intro _ | with_reducible constructor | split | simp_all

@[simp] theorem gives_typeAssertion {start : Nat} : Gives (typeAssertion r start) := by
  unfold typeAssertion
  repeat' first | intro _ | with_reducible constructor | split | simp_all

@[simp] theorem gives_heritage : Gives (heritage r) := by
  unfold heritage
  repeat' first | intro _ | with_reducible constructor | split | simp_all

@[simp] theorem gives_heritageList : Gives (heritageList r) := by
  unfold heritageList
  repeat' first | intro _ | with_reducible constructor | split | simp_all

@[simp] theorem gives_interfaceDecl {start : Nat} : Gives (interfaceDecl r start) := by
  unfold interfaceDecl
  repeat' first | intro _ | with_reducible constructor | split | simp_all

@[simp] theorem gives_typeAliasDecl {start : Nat} : Gives (typeAliasDecl r start) := by
  unfold typeAliasDecl
  repeat' first | intro _ | with_reducible constructor | split | simp_all

@[simp] theorem gives_enumMember : Gives (enumMember r) := by
  unfold enumMember
  repeat' first | intro _ | with_reducible constructor | split | simp_all

@[simp] theorem gives_enumDecl {start : Nat} {isConst : Bool} :
    Gives (enumDecl r start isConst) := by
  unfold enumDecl
  repeat' first | intro _ | with_reducible constructor | split | simp_all

omit hr in
@[simp] theorem gives_moduleReference : Gives moduleReference := by
  unfold moduleReference
  repeat' first | intro _ | with_reducible constructor | split | simp_all

omit hr in
@[simp] theorem gives_importEquals {start : Nat} {name : Tree} {isExport typeOnly : Bool}
    (h : fresh name) : Gives (importEquals start name isExport typeOnly) := by
  unfold importEquals
  repeat' first | intro _ | with_reducible constructor | split | simp_all

end

end RouteManifest.Script.Grammar
