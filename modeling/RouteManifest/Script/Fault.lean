import RouteManifest.Source

/-!
# Syntax faults

What can be wrong with the text of a module, as causes with their wording. A fault is reported
with the span that it concerns.
-/

namespace RouteManifest.Script

inductive Fault where
  | unexpectedEnd
  | expected (token got : String)
  | unexpected (got expectation : String)
  | expectedStatementEnd
  | expectedIdentifier
  | expressionExpected
  | expectedSemicolon
  | expectedAnIdentifier
  -- characters, numbers and strings
  | unexpectedCharacter (shown : String)
  | expectedUnicodeEscape
  | escapeInReservedWord (word : String)
  | invalidIdentifierCharacter
  | invalidUnicodeEscape
  | invalidStringEscape
  | badEscape (expectation : String)
  | unterminatedComment
  | unterminatedString
  | unterminatedTemplate
  | unterminatedRegex
  | unknownRegexFlags
  | duplicatedRegexFlag (flag : Char)
  | identifierAfterNumber
  | expectedDigit (radix : Nat)
  | exponentWithoutDigits
  | misplacedNumericSeparator
  | legacyOctal
  | legacyDecimal
  | legacyOctalLiteral
  | legacyComment
  | conflictMarker
  -- names
  | nameInStrictMode (word : String)
  | awaitAsName
  | evalOrArguments
  | argumentsInField
  | reservedShorthand
  | reservedImport
  | spaceAfterHash
  -- statements
  | breakOutside
  | breakTarget
  | continueOutside
  | jumpTarget
  | duplicateLabel (label : String)
  | labelledFunction
  | labelledGenerator
  | declarationNotAllowed
  | returnNotAllowed
  | lineBreakInThrow
  | multipleDefaults
  | withInStrictMode
  | patternWithoutInit
  | constWithoutInit
  | emptyDeclarationList
  | trailingComma
  | oneBindingExpected
  | initializerInHead
  | asyncInForOf
  | typeInForOf
  | forAwaitNotOf
  | importExportOutside
  | usingNotEnabled
  | usingNotAllowed
  | usingInForIn
  | usingWithPattern
  | usingWithoutInit
  | illegalUseStrict
  -- expressions
  | notPattern
  | notAssignable
  | invalidAssignmentTarget
  | assignmentProperty
  | commaInComputedKey
  | emptyParens
  | spreadInParens
  | unaryBeforePower
  | nullishMixed
  | deleteOfName
  | deleteOfNonReference
  | awaitInFunction
  | awaitInParameter
  | yieldInParameter
  | newTargetOutside
  | invalidSuper
  | invalidSuperCall
  | superPrivateName
  | taggedTemplateInChain
  | chainInNew
  | superCallInChain
  | trailingCommaInImport
  | importNotAllowed
  | lineBreakBeforeArrow
  | arrowNotAllowed
  | notAnExpression
  | awaitStar
  | decoratorsTwice
  | withUnsupported
  | patternInForIn
  | dotsWithoutIdentifier
  | restNotLast
  | restParameterNotLast
  | commaAfterRest
  | restOptional
  | restInitializer
  | questionAndInitializer
  | optionalPattern
  | typeAfterDefault
  | requiredAfterOptional
  | optionalMember
  | getterParameters
  | setterParameters
  | setterWithoutParameter
  | restInSetter
  | initializerInDeclaration
  -- classes
  | duplicateConstructor
  | asyncConstructor
  | generatorConstructor
  | accessorConstructor
  | fieldNamedConstructor
  | privateConstructor
  | readonlyMethod
  | readonlyAccessor
  | abstractOutside
  | abstractBody
  | abstractInitializer
  | overrideWithoutBase
  | modifierOrder (first second : String)
  | modifierSeen (word : String)
  | modifierConflict (first second : String)
  | modifierOnConstructor (word : String)
  | modifierOnPrivate (word : String)
  | accessOnPrivate
  | constructorResultType
  | abstractConstructor
  | modifierOnTypeParameter (word : String)
  | varianceModifier (word : String)
  | constModifier (word : String)
  | declareModifier
  | declareInAmbient
  | modifiersNotAllowed
  | asyncModifier
  | constructorTypeParameters
  | implementationInAmbient
  | duplicateExtends
  | extendsAfterImplements
  | duplicateImplements
  | severalBases
  | invalidClassName
  | invalidInterfaceName
  | parameterPropertyOutside
  | parameterPropertyPattern
  | decoratorsNotValid
  | leadingDecorator
  | decoratorOnExport
  | exportNotAllowed
  -- types
  | emptyTypeParameters
  | emptyTypeArguments
  | privateNameInType
  | notTypeName
  | severalExtends
  | typeExpected
  | importTypeLiteral
  | indexSignatureParameters
  | numericEnumMember
  | computedEnumMember
  | initializerNotAllowed
  | nonNullNotAllowed (word : String)
  -- imports and exports
  | stringExportBinding
  | stringImportBinding (name : String)
  | exportWithoutFrom (name : String)
  | typeInTypeImport
  | typeInTypeExport
  -- tags
  | unterminatedTagContents
  | emptyTagAttribute
  | invalidTagValue
  | expectedClosingTag (name : String)
  | expectedClosingFragment
  | unexpectedInTagText (suggestions : String)
  -- what no message of its own is made of
  | entityWithoutDigits
  | entityWithoutCharacter
  | namespacedObject
  | noToken
  deriving DecidableEq, Repr, Inhabited

namespace Fault

/-- The name of a digit of a radix with its article. -/
def digitName : Nat → String
  | 2 => "a binary"
  | 8 => "an octal"
  | 10 => "a decimal"
  | _ => "a hexadecimal"

def message : Fault → String
  | unexpectedEnd => "Unexpected eof"
  | expected token got => s!"Expected '{token}', got '{got}'"
  | unexpected got expectation => s!"Unexpected token `{got}`. Expected {expectation}"
  | expectedStatementEnd => "Expected ';', '\x7d' or <eof>"
  | expectedIdentifier => "Expected ident"
  | expressionExpected => "Expression expected"
  | expectedSemicolon => "Expected a semicolon"
  | expectedAnIdentifier => "Expected an identifier"
  | unexpectedCharacter shown => s!"Unexpected character {shown}"
  | expectedUnicodeEscape => "Expected unicode escape"
  | escapeInReservedWord word => s!"Unexpected escape sequence in reserved word: {word}"
  | invalidIdentifierCharacter => "Invalid character in identifier"
  | invalidUnicodeEscape => "Invalid unicode escape"
  | invalidStringEscape => "Invalid string escape"
  | badEscape expectation => s!"Bad character escape sequence, expected {expectation}"
  | unterminatedComment => "Unterminated block comment"
  | unterminatedString => "Unterminated string constant"
  | unterminatedTemplate => "Unterminated template"
  | unterminatedRegex => "Unterminated regexp literal"
  | unknownRegexFlags => "Unknown regular expression flags."
  | duplicatedRegexFlag flag => s!"Duplicated regular expression flag '{flag}'."
  | identifierAfterNumber => "Identifier cannot follow number"
  | expectedDigit radix => s!"Expected {digitName radix} digit"
  | exponentWithoutDigits => "Expected +, - or decimal digit after e"
  | misplacedNumericSeparator => "A numeric separator is only allowed between two digits"
  | legacyOctal => "Legacy octal escape is not permitted in strict mode"
  | legacyDecimal => "Legacy decimal escape is not permitted in strict mode"
  | legacyOctalLiteral =>
    "Legacy octal literals are not available when targeting ECMAScript 5 and higher"
  | legacyComment => "Legacy comments cannot be used in module code"
  | conflictMarker => "Merge conflict marker encountered."
  | nameInStrictMode word => s!"`{word}` cannot be used as an identifier in strict mode"
  | awaitAsName => "`await` cannot be used as an identifier in an async context"
  | evalOrArguments =>
    "'eval' and 'arguments' cannot be used as a binding identifier in strict mode"
  | argumentsInField => "'arguments' is only allowed in functions and class methods"
  | reservedShorthand => "Cannot use a reserved word as a shorthand property"
  | reservedImport => "cannot import as reserved word"
  | spaceAfterHash => "Unexpected space between # and identifier"
  | breakOutside =>
    "A 'break' statement can only be used within an enclosing iteration or switch statement"
  | breakTarget => "A 'break' statement can only jump to a label of an enclosing statement"
  | continueOutside =>
    "A 'continue' statement can only jump to a label of an enclosing iteration statement"
  | jumpTarget => "Jump target cannot cross function boundary"
  | duplicateLabel label => s!"Label {label} is already declared"
  | labelledFunction => "Function cannot be labelled in strict mode"
  | labelledGenerator => "Generator or async function cannot be labelled"
  | declarationNotAllowed => "Declaration is not allowed"
  | returnNotAllowed => "Return statement is not allowed here"
  | lineBreakInThrow => "LineBreak cannot follow 'throw'"
  | multipleDefaults => "A switch block cannot have multiple defaults"
  | withInStrictMode => "With statement are not allowed in strict mode"
  | patternWithoutInit => "Destructuring bindings require initializers"
  | constWithoutInit => "'const' declarations must be initialized"
  | emptyDeclarationList => "Variable declaration list cannot be empty"
  | trailingComma => "Trailing comma is not allowed"
  | oneBindingExpected => "Expected one variable binding"
  | initializerInHead => "Unexpected initializer in for in/of loop"
  | asyncInForOf => "The left-hand side of a 'for...of' statement may not be 'async'."
  | typeInForOf => "The left-hand side of a 'for...of' statement cannot use a type annotation"
  | forAwaitNotOf => "for await syntax is valid only for for-of statement"
  | importExportOutside => "'import', and 'export' cannot be used outside of module code"
  | usingNotEnabled => "Using declaration is not enabled. Set jsc.parser.usingDecl to true"
  | usingNotAllowed => "Using declaration is not allowed"
  | usingInForIn => "Using declaration is not allowed in for-in loop"
  | usingWithPattern => "Using declaration only allows identifiers"
  | usingWithoutInit => "Using declaration requires initializer"
  | illegalUseStrict =>
    "Illegal 'use strict' directive in function with non-simple parameter list."
  | notPattern => "Not a pattern"
  | notAssignable => "Cannot assign to this"
  | invalidAssignmentTarget =>
    "The left-hand side of an assignment expression must be a variable or a property access."
  | assignmentProperty => "assignment property is invalid syntax"
  | commaInComputedKey => "A comma expression is not allowed in a computed property name"
  | emptyParens => "Parenthesized expression cannot be empty"
  | spreadInParens => "Parenthesized expression cannot contain spread operator"
  | unaryBeforePower => "'**' cannot be applied to unary/await expression."
  | nullishMixed =>
    "Nullish coalescing operator(??) requires parens when mixing with logical operators"
  | deleteOfName => "'delete' cannot be called on an identifier in strict mode"
  | deleteOfNonReference => "The operand of a delete operator must be a property reference."
  | awaitInFunction => "await isn't allowed in non-async function"
  | awaitInParameter => "`await` expressions cannot be used in a parameter initializer."
  | yieldInParameter => "'yield' cannot be used as a parameter within generator"
  | newTargetOutside =>
    "'new.target' is only allowed in the body of a function declaration, function " ++
      "expression, or class."
  | invalidSuper => "Invalid access to super"
  | invalidSuperCall => "Invalid `super()`"
  | superPrivateName => "Index super with private name is not allowed"
  | taggedTemplateInChain => "Tagged template literal is not allowed in an optional chain"
  | chainInNew => "Constructor in optional chain is not allowed"
  | superCallInChain => "Super call in optional chain is not allowed"
  | trailingCommaInImport => "Trailing comma is disallowed inside import(...) arguments"
  | importNotAllowed => "Import is not allowed here"
  | arrowNotAllowed => "An arrow function is not allowed here"
  | notAnExpression => "Not an expression"
  | awaitStar =>
    "await* has been removed from the async functions proposal. Use Promise.all() instead."
  | decoratorsTwice =>
    "Decorators may not appear after `export` or `export default` if they also appear " ++
      "before `export`."
  | withUnsupported =>
    "The 'with' statement is not supported. All symbols in a 'with' block will have type 'any'."
  | patternInForIn =>
    "The left-hand side of a 'for...in' statement cannot be a destructuring pattern"
  | lineBreakBeforeArrow => "Unexpected line break between arrow head and arrow"
  | dotsWithoutIdentifier => "`...` must be followed by an identifier in declaration contexts"
  | restNotLast => "Rest element must be final element"
  | restParameterNotLast => "A rest parameter must be last in a parameter list"
  | commaAfterRest => "Trailing comma isn't permitted after a rest element"
  | restOptional => "A rest parameter cannot be optional"
  | restInitializer => "A rest parameter cannot have an initializer"
  | questionAndInitializer => "Parameter cannot have question mark and initializer"
  | optionalPattern =>
    "A binding pattern parameter cannot be optional in an implementation signature."
  | typeAfterDefault => "Type annotations must come before default assignments"
  | requiredAfterOptional => "A required element cannot follow an optional element."
  | optionalMember => "An object member cannot be declared optional"
  | getterParameters => "A `get` accessor cannot have parameters"
  | setterParameters => "A `set` accessor must have exactly one parameter"
  | setterWithoutParameter => "Setter should have exactly one parameter"
  | restInSetter => "Rest pattern is not allowed in setter"
  | initializerInDeclaration =>
    "A parameter initializer is only allowed in a function or constructor implementation"
  | duplicateConstructor => "A class can only have one constructor"
  | asyncConstructor => "Constructor can't be an async function"
  | generatorConstructor => "Constructor can't be a generator"
  | accessorConstructor => "Class constructor can't be an accessor"
  | fieldNamedConstructor => "Classes may not have a non-static field named 'constructor'"
  | privateConstructor => "Classes can't have a private field named '#constructor'."
  | readonlyMethod => "A method cannot be readonly"
  | readonlyAccessor => "A getter or a setter cannot be readonly"
  | abstractOutside => "Abstract methods can only appear within an abstract class."
  | abstractBody =>
    "Abstract method cannot have an implementation because it is marked abstract."
  | abstractInitializer =>
    "Abstract property cannot have an initializer because it is marked abstract."
  | overrideWithoutBase =>
    "This member cannot have an 'override' modifier because its containing class does not " ++
      "extend another class."
  | modifierOrder first second => s!"'{first}' modifier must precede '{second}' modifier."
  | modifierSeen word => s!"'{word}' modifier already seen."
  | modifierConflict first second =>
    s!"'{first}' modifier cannot be used with '{second}' modifier."
  | modifierOnConstructor word =>
    s!"'{word}' modifier cannot appear on a constructor declaration"
  | accessOnPrivate =>
    "An accessibility modifier cannot be used with a private identifier"
  | constructorResultType => "Type annotation cannot appear on a constructor declaration"
  | abstractConstructor =>
    "`abstract` modifier can only appear on a class or method declaration"
  | modifierOnPrivate word => s!"'{word}' modifier cannot be used with a private identifier"
  | modifierOnTypeParameter word => s!"'{word}' modifier cannot appear on a type parameter"
  | varianceModifier word =>
    s!"'{word}' modifier can only appear on a type parameter of a class, interface or type alias"
  | constModifier word =>
    s!"'{word}' modifier can only appear on a type parameter of a function, method or class"
  | declareModifier => "`declare` modifier cannot appear on class elements of this kind"
  | declareInAmbient => "`declare` modifier not allowed for code already in an ambient context"
  | modifiersNotAllowed => "Modifiers cannot appear here"
  | asyncModifier => "`async` modifier cannot be used here"
  | constructorTypeParameters =>
    "Type parameters cannot appear on a constructor declaration"
  | implementationInAmbient => "An implementation cannot be declared in ambient contexts"
  | duplicateExtends => "`extends` clause already seen."
  | extendsAfterImplements => "'extends' clause must precede 'implements' clause."
  | duplicateImplements => "'implements' clause already seen."
  | severalBases => "Classes can only extend a single class"
  | invalidClassName => "Invalid class name"
  | invalidInterfaceName => "interface name is invalid"
  | parameterPropertyOutside =>
    "A parameter property is only allowed in a constructor implementation"
  | parameterPropertyPattern =>
    "Typescript parameter property must be an identifier or assignment pattern"
  | decoratorsNotValid => "Decorators are not valid here"
  | leadingDecorator => "Leading decorators must be attached to a class declaration"
  | decoratorOnExport =>
    "Using the export keyword between a decorator and a class is not allowed. Please use " ++
      "`export @dec class` instead."
  | exportNotAllowed => "`export` is not allowed here"
  | emptyTypeParameters => "Type parameter list cannot be empty"
  | emptyTypeArguments => "Type argument list cannot be empty."
  | privateNameInType => "private names are not allowed in interface"
  | notTypeName =>
    "An interface can only extend an identifier/qualified-name with optional type arguments."
  | severalExtends => "'extends' clause already seen."
  | typeExpected => "Type expected"
  | importTypeLiteral => "literal in an import type should be string literal"
  | indexSignatureParameters => "An index signature must have exactly one parameter"
  | numericEnumMember => "An enum member cannot have a numeric name"
  | computedEnumMember => "Computed property names are not allowed in enums"
  | initializerNotAllowed => "Initializers are not allowed in ambient contexts."
  | nonNullNotAllowed word =>
    s!"Typescript non-null assertion operator is not allowed with '{word}'"
  | stringExportBinding =>
    "A string literal cannot be used as an exported binding without `from`."
  | stringImportBinding name =>
    "A string literal cannot be used as an imported binding.\n- Did you mean `import \x7b " ++
      s!"\"{name}\" as foo \x7d`?"
  | exportWithoutFrom name => s!"`{name}` cannot be used without `from` clause"
  | typeInTypeImport =>
    "The 'type' modifier cannot be used on a named import when 'import type' is used on " ++
      "its import statement."
  | typeInTypeExport =>
    "The 'type' modifier cannot be used on a named export when 'export type' is used on " ++
      "its export statement."
  | unterminatedTagContents => "Unterminated JSX contents"
  | emptyTagAttribute => "JSX attributes must only be assigned a non-empty expression"
  | invalidTagValue => "JSX value should be either an expression or a quoted JSX text"
  | expectedClosingTag name => s!"Expected corresponding JSX closing tag for <{name}>"
  | expectedClosingFragment => "Expected corresponding JSX closing tag for <>"
  | unexpectedInTagText suggestions => s!"Unexpected token. Did you mean {suggestions}?"
  | entityWithoutDigits => "failed to parse string as number: ParseIntError \x7b kind: Empty \x7d"
  | entityWithoutCharacter => "failed to parse number as char"
  | namespacedObject => "not implemented: JSXNamespacedName -> JSXObject"
  | noToken =>
    "internal error: entered unreachable code: Current token is `None`. Parser should not " ++
      "call bump() without knowing current token"

/-- A text that the reader gives up on altogether, instead of reporting where it is wrong. -/
def isBreakdown : Fault → Bool
  | entityWithoutDigits | entityWithoutCharacter | namespacedObject | noToken => true
  | _ => false

end Fault

/-- A fault and the stretch of source that it concerns. -/
structure Failure where
  span : Span
  fault : Fault
  deriving DecidableEq, Repr, Inhabited

end RouteManifest.Script
