import Lumo.Builtins

/-! # Expressions

The expression language of the platform and its evaluator. An expression is data; it is evaluated
against a context of nested values, and answers true, false or an error. -/
namespace ExpressionKernel

open Builtins

inductive Scalar where
  | string (value : String)
  | number (value : ℚ)
  | boolean (value : Bool)
  | null
  deriving DecidableEq

inductive ComparisonOperator where
  | eq
  | neq
  | gt
  | gte
  | lt
  | lte
  | contains
  | starts_with
  | ends_with
  deriving DecidableEq

def ComparisonOperator.text : ComparisonOperator → String
  | eq => "eq"
  | neq => "neq"
  | gt => "gt"
  | gte => "gte"
  | lt => "lt"
  | lte => "lte"
  | contains => "contains"
  | starts_with => "starts_with"
  | ends_with => "ends_with"

/-- `existsAt` and `inSet` are the kinds `exists` and `in`. -/
inductive Expression where
  | literal (value : Scalar)
  | ref (path : String)
  | existsAt (path : String)
  | not (operand : Expression)
  | and (operands : List Expression)
  | or (operands : List Expression)
  | compare (op : ComparisonOperator) (left right : Expression)
  | inSet (value : Expression) (set : List Scalar)

def MAX_EXPRESSION_DEPTH : ℕ := 32

def MAX_EXPRESSION_NODES : ℕ := 512

mutual

def walk : Expression → ℕ → ℕ
  | .literal _, depth => depth
  | .ref _, depth => depth
  | .existsAt _, depth => depth
  | .not operand, depth => walk operand (depth + 1)
  | .inSet value _, depth => walk value (depth + 1)
  | .compare _ left right, depth => max (walk left (depth + 1)) (walk right (depth + 1))
  | .and operands, depth => walkAll operands depth depth
  | .or operands, depth => walkAll operands depth depth

def walkAll : List Expression → ℕ → ℕ → ℕ
  | [], _, deepest => deepest
  | operand :: rest, depth, deepest => walkAll rest depth (max deepest (walk operand (depth + 1)))

end

mutual

def nodes : Expression → ℕ
  | .literal _ => 1
  | .ref _ => 1
  | .existsAt _ => 1
  | .not operand => 1 + nodes operand
  | .inSet value _ => 1 + nodes value
  | .compare _ left right => 1 + nodes left + nodes right
  | .and operands => 1 + nodesAll operands
  | .or operands => 1 + nodesAll operands

def nodesAll : List Expression → ℕ
  | [] => 0
  | operand :: rest => nodes operand + nodesAll rest

end

structure ExpressionMetrics where
  depth : ℕ
  nodes : ℕ

def measureExpression (expression : Expression) : ExpressionMetrics where
  depth := walk expression 1
  nodes := nodes expression

/-- What a context may hold. Besides its own entries an object has the members that every object
inherits: methods, and the prototype that they come from. -/
inductive ContextValue where
  | scalar (value : Scalar)
  | object (entries : List (String × ContextValue))
  | array (items : List ContextValue)
  | method
  | prototype

def inheritedMethods : List String :=
  ["constructor", "__defineGetter__", "__defineSetter__", "hasOwnProperty", "__lookupGetter__",
    "__lookupSetter__", "isPrototypeOf", "propertyIsEnumerable", "toString", "valueOf",
    "toLocaleString"]

/-- `current[segment]` of an object; of anything else nothing is looked up. -/
def lookUp (segment : String) : ContextValue → Option ContextValue
  | .object entries =>
    match entries.find? fun entry => entry.1 = segment with
    | some entry => some entry.2
    | none =>
      if segment = "__proto__" then some .prototype
      else if segment ∈ inheritedMethods then some .method
      else none
  | .prototype =>
    if segment = "__proto__" then some (.scalar .null)
    else if segment ∈ inheritedMethods then some .method
    else none
  | _ => none

def resolvePath (context : ContextValue) (path : String) : Option ContextValue :=
  ((path.toList.splitOn '.').map String.ofList).foldl
    (fun current segment => current.bind (lookUp segment)) (some context)

def asScalar : ContextValue → Option Scalar
  | .scalar value => some value
  | _ => none

inductive EvaluationError where
  | unknown_reference (path : String)
  | type_mismatch (operator : ComparisonOperator) (detail : String)
  | not_boolean (path : String)
  /-- The error of a literal, whose text names its value. -/
  | literal_not_boolean (value : Scalar)
  | depth_exceeded (limit : ℕ)
  | nodes_exceeded (limit : ℕ)
  deriving DecidableEq

/-- `typeof`. -/
def Scalar.type : Scalar → String
  | string _ => "string"
  | number _ => "number"
  | boolean _ => "boolean"
  | null => "object"

def orderNumbers (op : ComparisonOperator) (left right : ℚ) : Bool :=
  if op = .gt then right < left
  else if op = .gte then right ≤ left
  else if op = .lt then left < right
  else left ≤ right

def orderStrings (op : ComparisonOperator) (left right : String) : Bool :=
  if op = .gt then lessThan right left
  else if op = .gte then !lessThan left right
  else if op = .lt then lessThan left right
  else !lessThan right left

def order (op : ComparisonOperator) : Scalar → Scalar → Except EvaluationError Bool
  | .number left, .number right => .ok (orderNumbers op left right)
  | .string left, .string right => .ok (orderStrings op left right)
  | left, right =>
    .error (.type_mismatch op ("cannot order " ++ left.type ++ " against " ++ right.type))

def search (op : ComparisonOperator) : Scalar → Scalar → Except EvaluationError Bool
  | .string left, .string right =>
    if op = .contains then .ok (left.toList.tails.any right.toList.isPrefixOf)
    else if op = .starts_with then .ok (right.toList.isPrefixOf left.toList)
    else .ok (right.toList.isSuffixOf left.toList)
  | _, _ => .error (.type_mismatch op (op.text ++ " requires two strings"))

def compare (op : ComparisonOperator) (left right : Scalar) : Except EvaluationError Bool :=
  match op with
  | .eq => .ok (left = right)
  | .neq => .ok (left ≠ right)
  | .gt | .gte | .lt | .lte => order op left right
  | .contains | .starts_with | .ends_with => search op left right

/-- The value of a reference. -/
def reference (context : ContextValue) (path : String) : Except EvaluationError Scalar :=
  match resolvePath context path with
  | none => .error (.unknown_reference path)
  | some raw =>
    match asScalar raw with
    | none => .error (.type_mismatch .eq (path ++ " is not a scalar"))
    | some value => .ok value

def isPresent (context : ContextValue) (path : String) : Bool :=
  match resolvePath context path with
  | none => false
  | some (.scalar .null) => false
  | some _ => true

def asValue (context : ContextValue) :
    Expression → Except EvaluationError Bool → Except EvaluationError Scalar
  | .literal value, _ => .ok value
  | .ref path, _ => reference context path
  | _, condition => condition.map .boolean

section Evaluate

variable (context : ContextValue)

mutual

def evaluateNode : Expression → Except EvaluationError Bool
  | .literal (.boolean value) => .ok value
  | .literal value => .error (.literal_not_boolean value)
  | .ref path =>
    match reference context path with
    | .error e => .error e
    | .ok (.boolean value) => .ok value
    | .ok _ => .error (.not_boolean path)
  | .existsAt path => .ok (isPresent context path)
  | .not operand => (evaluateNode operand).map (!·)
  | .and operands => evaluateAnd operands
  | .or operands => evaluateOr operands
  | .compare op left right => do
    let leftValue ← asValue context left (evaluateNode left)
    let rightValue ← asValue context right (evaluateNode right)
    compare op leftValue rightValue
  | .inSet value set => do
    let found ← asValue context value (evaluateNode value)
    return found ∈ set

def evaluateAnd : List Expression → Except EvaluationError Bool
  | [] => .ok true
  | operand :: rest =>
    match evaluateNode operand with
    | .error e => .error e
    | .ok false => .ok false
    | .ok true => evaluateAnd rest

def evaluateOr : List Expression → Except EvaluationError Bool
  | [] => .ok false
  | operand :: rest =>
    match evaluateNode operand with
    | .error e => .error e
    | .ok true => .ok true
    | .ok false => evaluateOr rest

end

def evaluateValue (expression : Expression) : Except EvaluationError Scalar :=
  asValue context expression (evaluateNode context expression)

def evaluate (expression : Expression) : Except EvaluationError Bool :=
  let metrics := measureExpression expression
  if MAX_EXPRESSION_DEPTH < metrics.depth then .error (.depth_exceeded MAX_EXPRESSION_DEPTH)
  else if MAX_EXPRESSION_NODES < metrics.nodes then .error (.nodes_exceeded MAX_EXPRESSION_NODES)
  else evaluateNode context expression

end Evaluate

mutual

def paths : Expression → List String
  | .literal _ => []
  | .ref path => [path]
  | .existsAt path => [path]
  | .not operand => paths operand
  | .and operands => pathsAll operands
  | .or operands => pathsAll operands
  | .compare _ left right => paths left ++ paths right
  | .inSet value _ => paths value

def pathsAll : List Expression → List String
  | [] => []
  | operand :: rest => paths operand ++ pathsAll rest

end

def reading (context : ContextValue) (path : String) : Option (Option Scalar) :=
  (resolvePath context path).map asScalar

def referenceOf (path : String) : Option (Option Scalar) → Except EvaluationError Scalar
  | none => .error (.unknown_reference path)
  | some none => .error (.type_mismatch .eq (path ++ " is not a scalar"))
  | some (some value) => .ok value

theorem reference_eq (context : ContextValue) (path : String) :
    reference context path = referenceOf path (reading context path) := by
  unfold reference reading
  cases resolvePath context path with
  | none => rfl
  | some raw => cases raw <;> rfl

theorem isPresent_eq (context : ContextValue) (path : String) :
    isPresent context path = ((reading context path).getD (some .null) != some .null) := by
  unfold isPresent reading
  cases resolvePath context path with
  | none => rfl
  | some raw =>
    cases raw with
    | scalar value => cases value <;> rfl
    | _ => rfl

section Reading

variable {context context' : ContextValue}

theorem reference_congr {path : String} (h : reading context path = reading context' path) :
    reference context path = reference context' path := by
  rw [reference_eq, reference_eq, h]

theorem asValue_congr {expression : Expression} {condition : Except EvaluationError Bool}
    (h : ∀ path ∈ paths expression, reading context path = reading context' path) :
    asValue context expression condition = asValue context' expression condition := by
  cases expression with
  | ref path => exact reference_congr (h path (List.mem_singleton.mpr rfl))
  | _ => rfl

mutual

theorem evaluateNode_congr : ∀ expression : Expression,
    (∀ path ∈ paths expression, reading context path = reading context' path) →
      evaluateNode context expression = evaluateNode context' expression
  | .literal value, _ => by cases value <;> rfl
  | .ref path, h => by
    rw [evaluateNode, evaluateNode, reference_congr (h path (List.mem_singleton.mpr rfl))]
  | .existsAt path, h => by
    rw [evaluateNode, evaluateNode, isPresent_eq, isPresent_eq,
      h path (List.mem_singleton.mpr rfl)]
  | .not operand, h => by
    rw [evaluateNode, evaluateNode, evaluateNode_congr operand h]
  | .and operands, h => by
    rw [evaluateNode, evaluateNode, evaluateAnd_congr operands h]
  | .or operands, h => by
    rw [evaluateNode, evaluateNode, evaluateOr_congr operands h]
  | .compare op left right, h => by
    rw [paths] at h
    have hleft := fun path hp => h path (List.mem_append_left _ hp)
    have hright := fun path hp => h path (List.mem_append_right _ hp)
    rw [evaluateNode, evaluateNode, evaluateNode_congr left hleft,
      evaluateNode_congr right hright, asValue_congr hleft, asValue_congr hright]
  | .inSet value set, h => by
    rw [paths] at h
    rw [evaluateNode, evaluateNode, evaluateNode_congr value h, asValue_congr h]

theorem evaluateAnd_congr : ∀ operands : List Expression,
    (∀ path ∈ pathsAll operands, reading context path = reading context' path) →
      evaluateAnd context operands = evaluateAnd context' operands
  | [], _ => rfl
  | operand :: rest, h => by
    rw [pathsAll] at h
    rw [evaluateAnd, evaluateAnd,
      evaluateNode_congr operand fun path hp => h path (List.mem_append_left _ hp),
      evaluateAnd_congr rest fun path hp => h path (List.mem_append_right _ hp)]

theorem evaluateOr_congr : ∀ operands : List Expression,
    (∀ path ∈ pathsAll operands, reading context path = reading context' path) →
      evaluateOr context operands = evaluateOr context' operands
  | [], _ => rfl
  | operand :: rest, h => by
    rw [pathsAll] at h
    rw [evaluateOr, evaluateOr,
      evaluateNode_congr operand fun path hp => h path (List.mem_append_left _ hp),
      evaluateOr_congr rest fun path hp => h path (List.mem_append_right _ hp)]

end

theorem evaluate_congr {expression : Expression}
    (h : ∀ path ∈ paths expression, reading context path = reading context' path) :
    evaluate context expression = evaluate context' expression := by
  rw [evaluate, evaluate, evaluateNode_congr expression h]

end Reading

end ExpressionKernel
