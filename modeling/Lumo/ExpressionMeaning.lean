import Lumo.ExpressionKernel
import Mathlib.Data.List.Infix

/-! # What an expression decides

Evaluation against the two-valued meaning of an expression, and what becomes of an answer when the
context grows or when operands change places. -/
namespace ExpressionKernel

open Builtins

def relates : ComparisonOperator → Scalar → Scalar → Bool
  | .eq, left, right => left = right
  | .neq, left, right => left ≠ right
  | .gt, .number left, .number right => right < left
  | .gte, .number left, .number right => right ≤ left
  | .lt, .number left, .number right => left < right
  | .lte, .number left, .number right => left ≤ right
  | .gt, .string left, .string right => lessThan right left
  | .gte, .string left, .string right => !lessThan left right
  | .lt, .string left, .string right => lessThan left right
  | .lte, .string left, .string right => !lessThan right left
  | .contains, .string left, .string right => right.toList <:+: left.toList
  | .starts_with, .string left, .string right => right.toList <+: left.toList
  | .ends_with, .string left, .string right => right.toList <:+ left.toList
  | _, _, _ => false

/-- The operator is meant for values of these types. -/
def Fits (op : ComparisonOperator) (left right : Scalar) : Prop :=
  match op with
  | .eq | .neq => True
  | .gt | .gte | .lt | .lte =>
    left.type = right.type ∧ (left.type = "number" ∨ left.type = "string")
  | .contains | .starts_with | .ends_with => left.type = "string" ∧ right.type = "string"

instance (op : ComparisonOperator) (left right : Scalar) : Decidable (Fits op left right) := by
  unfold Fits
  split <;> infer_instance

section Meaning

variable (context : ContextValue)

def scalarAt (path : String) : Scalar :=
  ((resolvePath context path).bind asScalar).getD .null

/-- A condition stands for its truth. -/
def valueOf : Expression → Bool → Scalar
  | .literal value, _ => value
  | .ref path, _ => scalarAt context path
  | _, truth => .boolean truth

mutual

def truth : Expression → Bool
  | .literal value => value = .boolean true
  | .ref path => scalarAt context path = .boolean true
  | .existsAt path => isPresent context path
  | .not operand => !truth operand
  | .and operands => allTrue operands
  | .or operands => someTrue operands
  | .compare op left right =>
    relates op (valueOf context left (truth left)) (valueOf context right (truth right))
  | .inSet value set => valueOf context value (truth value) ∈ set

def allTrue : List Expression → Bool
  | [] => true
  | operand :: rest => truth operand && allTrue rest

def someTrue : List Expression → Bool
  | [] => false
  | operand :: rest => truth operand || someTrue rest

end

/-- The expression has a value, if a condition that it may be is decided. -/
def HasValue : Expression → Prop → Prop
  | .literal _, _ => True
  | .ref path, _ => ∃ value, reference context path = .ok value
  | _, decided => decided

mutual

/-- Every literal is, and every referenced path holds, a scalar of the type that its place needs,
where the place of the whole needs a boolean. -/
def Typed : Expression → Prop
  | .literal value => value.type = "boolean"
  | .ref path => ∃ value, reference context path = .ok (.boolean value)
  | .existsAt _ => True
  | .not operand => Typed operand
  | .and operands => TypedAll operands
  | .or operands => TypedAll operands
  | .compare op left right =>
    HasValue context left (Typed left) ∧ HasValue context right (Typed right) ∧
      Fits op (valueOf context left (truth context left))
        (valueOf context right (truth context right))
  | .inSet value _ => HasValue context value (Typed value)

def TypedAll : List Expression → Prop
  | [] => True
  | operand :: rest => Typed operand ∧ TypedAll rest

end

end Meaning

section Evaluation

variable {context context' : ContextValue} {expression expression' : Expression}

variable {α β : Type} {path : String} {value : Scalar}
  {condition condition' : Except EvaluationError Bool} {operand : Expression}
  {operands others : List Expression}

theorem scalarAt_of_reference (h : reference context path = .ok value) :
    scalarAt context path = value := by
  unfold reference at h
  unfold scalarAt
  cases hraw : resolvePath context path with
  | none => simp [hraw] at h
  | some raw =>
    cases hscalar : asScalar raw with
    | none => simp [hraw, hscalar] at h
    | some found => simpa [hraw, hscalar] using h

/-- Searching a string, as a relation of lists. -/
theorem search_eq (l p : List Char) : l.tails.any p.isPrefixOf = decide (p <:+: l) ∧
    p.isPrefixOf l = decide (p <+: l) ∧ p.isSuffixOf l = decide (p <:+ l) := by
  refine ⟨?_, ?_, ?_⟩ <;> rw [Bool.eq_iff_iff]
  · simp [List.infix_iff_prefix_suffix, and_comm]
  · simp
  · simp

theorem compare_fits {op : ComparisonOperator} {left right : Scalar} (h : Fits op left right) :
    compare op left right = .ok (relates op left right) := by
  cases op <;> cases left <;> cases right <;>
    simp_all [Fits, compare, order, search, orderNumbers, orderStrings, relates, Scalar.type,
      search_eq]

theorem asValue_typed {typed : Prop} {t : Bool} (h : HasValue context expression typed)
    (hcondition : typed → condition = .ok t) :
    asValue context expression condition = .ok (valueOf context expression t) := by
  cases expression with
  | literal value => rfl
  | ref path =>
    obtain ⟨value, hvalue⟩ := h
    rw [asValue, hvalue, valueOf, scalarAt_of_reference hvalue]
  | _ =>
    rw [hcondition h]
    rfl

mutual

theorem evaluateNode_typed : ∀ expression : Expression, Typed context expression →
    evaluateNode context expression = .ok (truth context expression)
  | .literal value, h => by
    cases value with
    | boolean value => cases value <;> rfl
    | _ => simp [Typed, Scalar.type] at h
  | .ref path, h => by
    obtain ⟨value, hvalue⟩ := h
    rw [evaluateNode, hvalue, truth, scalarAt_of_reference hvalue]
    cases value <;> rfl
  | .existsAt path, _ => rfl
  | .not operand, h => by
    rw [evaluateNode, evaluateNode_typed operand h]
    rfl
  | .and operands, h => evaluateAnd_typed operands h
  | .or operands, h => evaluateOr_typed operands h
  | .compare op left right, h => by
    obtain ⟨hleft, hright, hfits⟩ := h
    rw [evaluateNode, asValue_typed hleft (evaluateNode_typed left),
      asValue_typed hright (evaluateNode_typed right)]
    exact compare_fits hfits
  | .inSet value set, h => by
    rw [evaluateNode, asValue_typed h (evaluateNode_typed value)]
    rfl

theorem evaluateAnd_typed : ∀ operands : List Expression, TypedAll context operands →
    evaluateAnd context operands = .ok (allTrue context operands)
  | [], _ => rfl
  | operand :: rest, h => by
    rw [evaluateAnd, evaluateNode_typed operand h.1, allTrue]
    cases truth context operand with
    | true => exact evaluateAnd_typed rest h.2
    | false => rfl

theorem evaluateOr_typed : ∀ operands : List Expression, TypedAll context operands →
    evaluateOr context operands = .ok (someTrue context operands)
  | [], _ => rfl
  | operand :: rest, h => by
    rw [evaluateOr, evaluateNode_typed operand h.1, someTrue]
    cases truth context operand with
    | true => rfl
    | false => exact evaluateOr_typed rest h.2

end

/-- Wherever the one context holds a scalar, the other holds the same. -/
def Extends (context context' : ContextValue) : Prop :=
  ∀ path value, reading context path = some (some value) →
    reading context' path = some (some value)

mutual

def hasExists : Expression → Bool
  | .literal _ => false
  | .ref _ => false
  | .existsAt _ => true
  | .not operand => hasExists operand
  | .and operands => anyExists operands
  | .or operands => anyExists operands
  | .compare _ left right => hasExists left || hasExists right
  | .inSet value _ => hasExists value

def anyExists : List Expression → Bool
  | [] => false
  | operand :: rest => hasExists operand || anyExists rest

end

theorem reference_extends (hextends : Extends context context')
    (h : reference context path = .ok value) : reference context' path = .ok value := by
  rw [reference_eq] at h ⊢
  rcases hread : reading context path with _ | _ | found
  · simp [hread, referenceOf] at h
  · simp [hread, referenceOf] at h
  · rwa [hextends path found hread, ← hread]

theorem asValue_extends (hextends : Extends context context')
    (hcondition : ∀ b, condition = .ok b → condition' = .ok b)
    (h : asValue context expression condition = .ok value) :
    asValue context' expression condition' = .ok value := by
  cases expression with
  | literal value => exact h
  | ref path => exact reference_extends hextends h
  | _ =>
    cases condition with
    | error e => cases h
    | ok b =>
      rw [hcondition b rfl]
      exact h

mutual

theorem evaluateNode_extends (hextends : Extends context context') :
    ∀ expression : Expression, hasExists expression = false → ∀ b,
      evaluateNode context expression = .ok b → evaluateNode context' expression = .ok b
  | .literal value, _, b, h => by cases value <;> exact h
  | .ref path, _, b, h => by
    rw [evaluateNode] at h ⊢
    split at h
    · cases h
    · rename_i found hfound
      rw [reference_extends hextends hfound]
      exact h
    · cases h
  | .existsAt path, hnone, _, _ => by cases hnone
  | .not operand, hnone, b, h => by
    rw [evaluateNode] at h ⊢
    cases hoperand : evaluateNode context operand with
    | error e => simp [hoperand, Except.map] at h
    | ok value =>
      rw [evaluateNode_extends hextends operand hnone value hoperand, ← hoperand]
      exact h
  | .and operands, hnone, b, h => evaluateAnd_extends hextends operands hnone b h
  | .or operands, hnone, b, h => evaluateOr_extends hextends operands hnone b h
  | .compare op left right, hnone, b, h => by
    obtain ⟨hleft, hright⟩ := Bool.or_eq_false_iff.mp hnone
    rw [evaluateNode] at h ⊢
    obtain ⟨leftValue, hleftValue, h⟩ := SharedKernel.bind_eq_ok.mp h
    obtain ⟨rightValue, hrightValue, h⟩ := SharedKernel.bind_eq_ok.mp h
    rw [asValue_extends hextends (evaluateNode_extends hextends left hleft) hleftValue,
      asValue_extends hextends (evaluateNode_extends hextends right hright) hrightValue]
    exact h
  | .inSet value set, hnone, b, h => by
    rw [evaluateNode] at h ⊢
    obtain ⟨found, hfound, h⟩ := SharedKernel.bind_eq_ok.mp h
    rw [asValue_extends hextends (evaluateNode_extends hextends value hnone) hfound]
    exact h

theorem evaluateAnd_extends (hextends : Extends context context') :
    ∀ operands : List Expression, anyExists operands = false → ∀ b,
      evaluateAnd context operands = .ok b → evaluateAnd context' operands = .ok b
  | [], _, _, h => h
  | operand :: rest, hnone, b, h => by
    obtain ⟨hoperand, hrest⟩ := Bool.or_eq_false_iff.mp hnone
    rw [evaluateAnd] at h ⊢
    split at h
    · cases h
    · rename_i hfalse
      rw [evaluateNode_extends hextends operand hoperand false hfalse]
      exact h
    · rename_i htrue
      rw [evaluateNode_extends hextends operand hoperand true htrue]
      exact evaluateAnd_extends hextends rest hrest b h

theorem evaluateOr_extends (hextends : Extends context context') :
    ∀ operands : List Expression, anyExists operands = false → ∀ b,
      evaluateOr context operands = .ok b → evaluateOr context' operands = .ok b
  | [], _, _, h => h
  | operand :: rest, hnone, b, h => by
    obtain ⟨hoperand, hrest⟩ := Bool.or_eq_false_iff.mp hnone
    rw [evaluateOr] at h ⊢
    split at h
    · cases h
    · rename_i htrue
      rw [evaluateNode_extends hextends operand hoperand true htrue]
      exact h
    · rename_i hfalse
      rw [evaluateNode_extends hextends operand hoperand false hfalse]
      exact evaluateOr_extends hextends rest hrest b h

end

mutual

/-- The operands of `and` and `or` come in any order, at any depth. -/
def Reordered : Expression → Expression → Prop
  | .literal value, other => other = .literal value
  | .ref path, other => other = .ref path
  | .existsAt path, other => other = .existsAt path
  | .not operand, other => ∃ operand', Reordered operand operand' ∧ other = .not operand'
  | .and operands, other => ∃ operands', ReorderedAll operands operands' ∧ other = .and operands'
  | .or operands, other => ∃ operands', ReorderedAll operands operands' ∧ other = .or operands'
  | .compare op left right, other => ∃ left' right', Reordered left left' ∧
      Reordered right right' ∧ other = .compare op left' right'
  | .inSet value set, other => ∃ value', Reordered value value' ∧ other = .inSet value' set

def ReorderedAll : List Expression → List Expression → Prop
  | [], others => others = []
  | operand :: rest, others => ∃ operand' rest', Reordered operand operand' ∧
      ReorderedAll rest rest' ∧ others.Perm (operand' :: rest')

end

/-- Two answers are the same. -/
def Agree {α : Type} (x y : Except EvaluationError α) : Prop :=
  ∀ a b, x = .ok a → y = .ok b → a = b

theorem Agree.refl (x : Except EvaluationError α) : Agree x x := by
  rintro a b rfl hb
  exact Except.ok.inj hb

theorem Agree.bind {x y : Except EvaluationError α} {f g : α → Except EvaluationError β}
    (h : Agree x y) (hfg : ∀ a, Agree (f a) (g a)) : Agree (x >>= f) (y >>= g) := by
  intro a b ha hb
  obtain ⟨u, hu, ha⟩ := SharedKernel.bind_eq_ok.mp ha
  obtain ⟨v, hv, hb⟩ := SharedKernel.bind_eq_ok.mp hb
  obtain rfl := h u v hu hv
  exact hfg u a b ha hb

theorem Agree.map {x y : Except EvaluationError α} (h : Agree x y) (f : α → β) :
    Agree (x.map f) (y.map f) := by
  intro a b ha hb
  cases x with
  | error e => cases ha
  | ok u =>
    cases y with
    | error e => cases hb
    | ok v =>
      cases ha
      cases hb
      rw [h u v rfl rfl]

theorem evaluateAnd_true (h : evaluateAnd context operands = .ok true) (hmem : operand ∈ operands) :
    evaluateNode context operand = .ok true := by
  induction operands with
  | nil => cases hmem
  | cons first rest ih =>
    rw [evaluateAnd] at h
    split at h
    · cases h
    · cases h
    · rename_i htrue
      rcases List.mem_cons.mp hmem with rfl | hmem
      · exact htrue
      · exact ih h hmem

theorem evaluateAnd_false (h : evaluateAnd context operands = .ok false) :
    ∃ operand ∈ operands, evaluateNode context operand = .ok false := by
  induction operands with
  | nil => cases h
  | cons first rest ih =>
    rw [evaluateAnd] at h
    split at h
    · cases h
    · rename_i hfalse
      exact ⟨first, List.mem_cons_self, hfalse⟩
    · obtain ⟨operand, hmem, hfalse⟩ := ih h
      exact ⟨operand, List.mem_cons_of_mem _ hmem, hfalse⟩

theorem evaluateOr_false (h : evaluateOr context operands = .ok false) (hmem : operand ∈ operands) :
    evaluateNode context operand = .ok false := by
  induction operands with
  | nil => cases hmem
  | cons first rest ih =>
    rw [evaluateOr] at h
    split at h
    · cases h
    · cases h
    · rename_i hfalse
      rcases List.mem_cons.mp hmem with rfl | hmem
      · exact hfalse
      · exact ih h hmem

theorem evaluateOr_true (h : evaluateOr context operands = .ok true) :
    ∃ operand ∈ operands, evaluateNode context operand = .ok true := by
  induction operands with
  | nil => cases h
  | cons first rest ih =>
    rw [evaluateOr] at h
    split at h
    · cases h
    · rename_i htrue
      exact ⟨first, List.mem_cons_self, htrue⟩
    · obtain ⟨operand, hmem, htrue⟩ := ih h
      exact ⟨operand, List.mem_cons_of_mem _ hmem, htrue⟩

/-- Every operand of the one list agrees with one of the other. -/
structure AgreeAll (context : ContextValue) (operands others : List Expression) : Prop where
  left : ∀ operand ∈ operands, ∃ other ∈ others,
    Agree (evaluateNode context operand) (evaluateNode context other)
  right : ∀ other ∈ others, ∃ operand ∈ operands,
    Agree (evaluateNode context operand) (evaluateNode context other)

theorem AgreeAll.and (h : AgreeAll context operands others) :
    Agree (evaluateAnd context operands) (evaluateAnd context others) := by
  intro a b ha hb
  cases a with
  | true =>
    cases b with
    | true => rfl
    | false =>
      obtain ⟨other, hother, hfalse⟩ := evaluateAnd_false hb
      obtain ⟨operand, hmem, hagree⟩ := h.right other hother
      exact hagree _ _ (evaluateAnd_true ha hmem) hfalse
  | false =>
    cases b with
    | true =>
      obtain ⟨operand, hmem, hfalse⟩ := evaluateAnd_false ha
      obtain ⟨other, hother, hagree⟩ := h.left operand hmem
      exact hagree _ _ hfalse (evaluateAnd_true hb hother)
    | false => rfl

theorem AgreeAll.or (h : AgreeAll context operands others) :
    Agree (evaluateOr context operands) (evaluateOr context others) := by
  intro a b ha hb
  cases a with
  | true =>
    cases b with
    | true => rfl
    | false =>
      obtain ⟨operand, hmem, htrue⟩ := evaluateOr_true ha
      obtain ⟨other, hother, hagree⟩ := h.left operand hmem
      exact hagree _ _ htrue (evaluateOr_false hb hother)
  | false =>
    cases b with
    | true =>
      obtain ⟨other, hother, htrue⟩ := evaluateOr_true hb
      obtain ⟨operand, hmem, hagree⟩ := h.right other hother
      exact hagree _ _ (evaluateOr_false ha hmem) htrue
    | false => rfl

theorem asValue_agree (h : Reordered expression expression')
    (hcondition : Agree condition condition') :
    Agree (asValue context expression condition) (asValue context expression' condition') := by
  cases expression with
  | literal value | ref path =>
    obtain rfl := h
    exact .refl _
  | existsAt path =>
    obtain rfl := h
    exact hcondition.map _
  | not operand | and operands | or operands | inSet value set =>
    obtain ⟨_, _, rfl⟩ := h
    exact hcondition.map _
  | compare op left right =>
    obtain ⟨_, _, _, _, rfl⟩ := h
    exact hcondition.map _

mutual

theorem evaluateNode_agree : ∀ expression expression' : Expression,
    Reordered expression expression' →
      Agree (evaluateNode context expression) (evaluateNode context expression')
  | .literal _, _, h | .ref _, _, h | .existsAt _, _, h => by
    obtain rfl := h
    exact .refl _
  | .not operand, _, h => by
    obtain ⟨operand', hoperand, rfl⟩ := h
    exact (evaluateNode_agree operand operand' hoperand).map _
  | .and operands, _, h => by
    obtain ⟨operands', hoperands, rfl⟩ := h
    exact (evaluateAll_agree operands operands' hoperands).and
  | .or operands, _, h => by
    obtain ⟨operands', hoperands, rfl⟩ := h
    exact (evaluateAll_agree operands operands' hoperands).or
  | .compare op left right, _, h => by
    obtain ⟨left', right', hleft, hright, rfl⟩ := h
    rw [evaluateNode, evaluateNode]
    exact (asValue_agree hleft (evaluateNode_agree left left' hleft)).bind fun _ =>
      (asValue_agree hright (evaluateNode_agree right right' hright)).bind fun _ => .refl _
  | .inSet value set, _, h => by
    obtain ⟨value', hvalue, rfl⟩ := h
    rw [evaluateNode, evaluateNode]
    exact (asValue_agree hvalue (evaluateNode_agree value value' hvalue)).bind fun _ => .refl _

theorem evaluateAll_agree : ∀ operands others : List Expression, ReorderedAll operands others →
    AgreeAll context operands others
  | [], _, h => by
    obtain rfl := h
    constructor <;> simp
  | operand :: rest, others, h => by
    obtain ⟨operand', rest', hoperand, hrest, hperm⟩ := h
    have hfirst := evaluateNode_agree operand operand' hoperand
    have hlater := evaluateAll_agree rest rest' hrest
    constructor
    · intro x hx
      rcases List.mem_cons.mp hx with rfl | hx
      · exact ⟨operand', hperm.mem_iff.mpr List.mem_cons_self, hfirst⟩
      · obtain ⟨y, hy, hagree⟩ := hlater.left x hx
        exact ⟨y, hperm.mem_iff.mpr (List.mem_cons_of_mem _ hy), hagree⟩
    · intro y hy
      rcases List.mem_cons.mp (hperm.mem_iff.mp hy) with rfl | hy
      · exact ⟨operand, List.mem_cons_self, hfirst⟩
      · obtain ⟨x, hx, hagree⟩ := hlater.right y hy
        exact ⟨x, List.mem_cons_of_mem _ hx, hagree⟩

end

def WithinLimits (expression : Expression) : Prop :=
  (measureExpression expression).depth ≤ MAX_EXPRESSION_DEPTH ∧
    (measureExpression expression).nodes ≤ MAX_EXPRESSION_NODES

instance (expression : Expression) : Decidable (WithinLimits expression) :=
  inferInstanceAs (Decidable (_ ∧ _))

theorem evaluate_within (h : WithinLimits expression) :
    evaluate context expression = evaluateNode context expression := by
  unfold evaluate
  rw [if_neg (Nat.not_lt.mpr h.1), if_neg (Nat.not_lt.mpr h.2)]

theorem evaluate_ok {b : Bool} (h : evaluate context expression = .ok b) :
    WithinLimits expression := by
  simp only [evaluate] at h
  split at h
  · cases h
  · rename_i hdepth
    split at h
    · cases h
    · rename_i hnodes
      exact ⟨Nat.not_lt.mp hdepth, Nat.not_lt.mp hnodes⟩

end Evaluation

/-- A typed expression has its meaning; what is decided stays so in a larger context, as long as
nothing asks what is absent; and no order of operands decides otherwise. -/
theorem conditions_decided :
    (∀ context expression, WithinLimits expression → Typed context expression →
      evaluate context expression = .ok (truth context expression)) ∧
    (∀ context context' expression b, Extends context context' → hasExists expression = false →
      evaluate context expression = .ok b → evaluate context' expression = .ok b) ∧
    ∀ context expression expression' b b', Reordered expression expression' →
      evaluate context expression = .ok b → evaluate context expression' = .ok b' → b = b' := by
  refine ⟨?_, ?_, ?_⟩
  · intro context expression hlimits htyped
    rw [evaluate_within hlimits, evaluateNode_typed expression htyped]
  · intro context context' expression b hextends hnone h
    have hlimits := evaluate_ok h
    rw [evaluate_within hlimits] at h ⊢
    exact evaluateNode_extends hextends expression hnone b h
  · intro context expression expression' b b' hreordered h h'
    rw [evaluate_within (evaluate_ok h)] at h
    rw [evaluate_within (evaluate_ok h')] at h'
    exact evaluateNode_agree expression expression' hreordered b b' h h'

variable {entries more : List (String × ContextValue)}

theorem lookUp_append (hmore : ∀ e ∈ more, e.1 ≠ "__proto__" ∧ e.1 ∉ inheritedMethods)
    {segment : String} {value : ContextValue} (h : lookUp segment (.object entries) = some value) :
    lookUp segment (.object (entries ++ more)) = some value := by
  unfold lookUp at h ⊢
  dsimp only at h ⊢
  rw [List.find?_append]
  cases hfound : entries.find? fun entry => entry.1 = segment with
  | some entry => simpa [hfound] using h
  | none =>
    have hnone : (more.find? fun entry => entry.1 = segment) = none := by
      rw [List.find?_eq_none]
      intro e he heq
      obtain ⟨hproto, hmethod⟩ := hmore e he
      rw [of_decide_eq_true heq] at hproto hmethod
      simp [hfound, hproto, hmethod] at h
    simpa [hfound, hnone] using h

/-- More entries, with names that no object inherits. -/
theorem extends_append (hmore : ∀ e ∈ more, e.1 ≠ "__proto__" ∧ e.1 ∉ inheritedMethods) :
    Extends (.object entries) (.object (entries ++ more)) := by
  intro path value h
  unfold reading resolvePath at h ⊢
  cases hsegments : path.toList.splitOn '.' with
  | nil => simp [hsegments, asScalar] at h
  | cons segment rest =>
    rw [hsegments] at h
    simp only [List.map_cons, List.foldl_cons, Option.bind_some] at h ⊢
    cases hlook : lookUp (String.ofList segment) (.object entries) with
    | none =>
      rw [hlook] at h
      have hlost (l : List String) : l.foldl (fun current segment => current.bind (lookUp segment))
          (none : Option ContextValue) = none := by
        induction l with
        | nil => rfl
        | cons _ _ ih => exact ih
      simp [hlost] at h
    | some found => rwa [lookUp_append hmore hlook, ← hlook]

private def visitor : List (String × ContextValue) :=
  [("country", .scalar (.string "eg")), ("value", .scalar (.number 7))]

private def valuable : Expression := .compare .gt (.ref "value") (.literal (.number 100))

private def abroad : Expression := .inSet (.ref "country") [.string "sa"]

theorem conditions_decided_visitor :
    evaluate (.object visitor) (.or [valuable, abroad]) = .ok false ∧
      evaluate (.object (visitor ++ [("name", .scalar .null)])) (.or [valuable, abroad]) =
        .ok false ∧
        ∀ b, evaluate (.object visitor) (.or [abroad, valuable]) = .ok b → false = b := by
  obtain ⟨htyped, hextends, hreordered⟩ := conditions_decided
  have hvalue : reference (.object visitor) "value" = .ok (.number 7) := by decide +kernel
  have hcountry : reference (.object visitor) "country" = .ok (.string "eg") := by decide +kernel
  have hanswer : evaluate (.object visitor) (.or [valuable, abroad]) = .ok false := by
    refine (htyped _ _ (by decide) ?_).trans (by decide +kernel)
    exact ⟨⟨⟨_, hvalue⟩, trivial, by decide +kernel⟩, ⟨_, hcountry⟩, trivial⟩
  refine ⟨hanswer, ?_, ?_⟩
  · exact hextends _ _ _ _ (extends_append (by decide)) rfl hanswer
  · intro b hb
    refine hreordered _ _ _ _ _ ?_ hanswer hb
    exact ⟨_, ⟨valuable, [abroad], ⟨_, _, rfl, rfl, rfl⟩,
      ⟨abroad, [], ⟨_, rfl, rfl⟩, rfl, .refl _⟩, .swap _ _ _⟩, rfl⟩

end ExpressionKernel
