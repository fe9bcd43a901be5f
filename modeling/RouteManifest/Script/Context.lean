/-!
# Dialects and contexts

A dialect fixes which constructs a file may use at all. A context says where in a module the text
being read stands; it changes how tokens are formed and which constructs are in order.
-/

namespace RouteManifest.Script

/-- The constructs that a file may use. -/
structure Dialect where
  typescript : Bool
  jsx : Bool
  decorators : Bool
  deriving DecidableEq, Repr, Inhabited

/-- Where in a module the text being read stands. -/
structure Context where
  /-- faults that can be passed over are not recorded -/
  ignoresFaults : Bool := false
  includesIn : Bool := false
  inAsync : Bool := false
  inGenerator : Bool := false
  inStaticBlock : Bool := false
  continueAllowed : Bool := false
  breakAllowed : Bool := false
  inType : Bool := false
  /-- angle brackets are operators even in a type -/
  anglesAreOperators : Bool := false
  inDeclare : Bool := false
  inConditional : Bool := false
  expectsColon : Bool := false
  inClass : Bool := false
  inField : Bool := false
  inFunction : Bool := false
  insideFunctionScope : Bool := false
  inParameters : Bool := false
  hasBase : Bool := false
  inPropertyName : Bool := false
  inForcedTag : Bool := false
  directSuperAllowed : Bool := false
  ignoresElse : Bool := false
  noConditionalTypes : Bool := false
  usingAllowed : Bool := false
  forHead : Bool := false
  forAwaitHead : Bool := false
  topLevelAwait : Bool := true
  deriving Repr, Inhabited

end RouteManifest.Script
