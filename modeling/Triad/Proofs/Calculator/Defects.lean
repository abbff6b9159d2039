import Triad.Proofs.Calculator.Derivation

/-!
# The first defect of a derivation

A derivation may have several defects: literals that are no words, divisions
by zero and results that are no words.  `Derivation.outcome` evaluates it in
unbounded integers and stops at the first defect, in this order:

* The operands of a chain are evaluated from left to right, each of them with
  all that is nested in it (`Derivation.operands`).
* Only when all of them have values, the operators of the chain are applied to
  them, from left to right (`operations`).

So a defect in an operand comes before every defect of an operator of the same
chain, also of one further to the left.  A derivation has a value in this sense
exactly if it is defined (`Derivation.outcome_eq_ok_iff`).
-/

namespace Triad.Calculator

/-! ## Computations that may stop -/

section Except

variable {ε α β : Type} {x : Except ε α} {f : α → Except ε β}

theorem bind_eq_ok_iff {b : β} : (x >>= f) = .ok b ↔ ∃ a, x = .ok a ∧ f a = .ok b := by
  cases x with
  | ok a => simp [bind, Except.bind]
  | error e => simp [bind, Except.bind]

theorem bind_eq_error_iff {e : ε} :
    (x >>= f) = .error e ↔ x = .error e ∨ ∃ a, x = .ok a ∧ f a = .error e := by
  cases x with
  | ok a => simp [bind, Except.bind]
  | error e => simp [bind, Except.bind]

end Except

/-! ## Operations -/

/-- The result of an operation in the integers, or the message about it if it
divides by zero or its result is no word. -/
def operation (a : Int) (op : Char) (b : Int) : Except String Int :=
  if (op = '/' → b ≠ 0) ∧ Word.Fits (combine a op b) then .ok (combine a op b)
  else
    .error ("cannot evaluate " ++ toString a ++ " " ++ String.singleton op ++ " " ++ toString b)

/-- Operators with their second operands, applied from left to right. -/
def operations (a : Int) (l : List (Char × Int)) : Except String Int :=
  l.foldlM (fun acc x => operation acc x.1 x.2) a

theorem operation_eq_ok_iff {a b v : Int} {op : Char} :
    operation a op b = .ok v ↔
      (op = '/' → b ≠ 0) ∧ Word.Fits (combine a op b) ∧ combine a op b = v := by
  unfold operation
  split
  next h =>
    rw [Except.ok.injEq]
    exact ⟨fun hv => ⟨h.1, h.2, hv⟩, fun h' => h'.2.2⟩
  next h =>
    refine ⟨nofun, fun h' => ?_⟩
    exact absurd ⟨h'.1, h'.2.1⟩ h

theorem operations_cons (a : Int) (op : Char) (b : Int) (l : List (Char × Int)) :
    operations a ((op, b) :: l) = (operation a op b >>= fun n => operations n l) :=
  List.foldlM_cons

/-- The last operator is applied to the result of the others. -/
theorem operations_snoc (a : Int) (l : List (Char × Int)) (op : Char) (b : Int) :
    operations a (l ++ [(op, b)]) = (operations a l >>= fun n => operation n op b) := by
  unfold operations
  rw [List.foldlM_append]
  refine bind_congr fun n => ?_
  rw [List.foldlM_cons]
  exact bind_pure _

/-- On operators of one level, an operation is the one of the calculator. -/
theorem operate_of_operation {level : Level} {a b : Int} {op : Char} (hop : op ∈ level.ops) :
    (∃ n, operation a op b = .ok n ∧ operate a op b = some n) ∨
      ∃ m, operation a op b = .error m ∧ operate a op b = none ∧
        undefinedOperation a op b = .fatal m := by
  by_cases h : (op = '/' → b ≠ 0) ∧ Word.Fits (combine a op b)
  · refine .inl ⟨combine a op b, if_pos h, ?_⟩
    exact (operate_eq_some_iff hop).2 ⟨h.1, h.2, rfl⟩
  · refine .inr ⟨_, if_neg h, ?_, rfl⟩
    refine Option.eq_none_iff_forall_ne_some.2 fun n hn => h ?_
    obtain ⟨hzero, hfits, -⟩ := (operate_eq_some_iff hop).1 hn
    exact ⟨hzero, hfits⟩

/-- The calculator folds a chain as its operators are applied. -/
theorem fold_eq_operations {level : Level} {a : Int} {l : List (Char × Int)}
    (hl : ∀ x ∈ l, x.1 ∈ level.ops) : fold a l = (operations a l).mapError .fatal := by
  induction l generalizing a with
  | nil => rfl
  | cons x l ih =>
    obtain ⟨op, b⟩ := x
    have hop : op ∈ level.ops := hl _ List.mem_cons_self
    rw [fold, operations_cons]
    rcases operate_of_operation (a := a) (b := b) hop with ⟨n, hn, hoperate⟩ | ⟨m, hm, hoperate, he⟩
    · rw [hoperate, hn]
      exact ih fun y hy => hl y (List.mem_cons_of_mem _ hy)
    · rw [hoperate, hm, he]
      rfl

/-! ## Evaluation up to the first defect -/

namespace Derivation

/-- The values of the operands: of the first one, and of the others with the
operators before them.  A factor is an operand by itself. -/
def operands : {r : Rank} → Derivation r → Except String (Int × List (Char × Int))
  | _, literal n _ => if Word.Fits n.value then .ok (n.value, []) else .error n.overflow.message
  | _, parens _ e _ => do
    let (a, l) ← e.operands
    let v ← operations a l
    return (v, [])
  | _, single e => do
    let (a, l) ← e.operands
    let v ← operations a l
    return (v, [])
  | _, more e op _ _ e' => do
    let (a, l) ← e.operands
    let (b, l') ← e'.operands
    let v ← operations b l'
    return (a, l ++ [(op, v)])

/-- The value, or the message about the first defect. -/
def outcome {r : Rank} (e : Derivation r) : Except String Int := do
  let (a, l) ← e.operands
  operations a l

variable {r : Rank} {level : Level} {a v : Int} {l : List (Char × Int)} {m : String}

theorem outcome_eq_error_iff_operands {e : Derivation r} :
    e.outcome = .error m ↔
      e.operands = .error m ∨ ∃ a l, e.operands = .ok (a, l) ∧ operations a l = .error m := by
  unfold outcome
  rw [bind_eq_error_iff, Prod.exists]

theorem outcome_eq_ok_iff_operands {e : Derivation r} :
    e.outcome = .ok v ↔ ∃ a l, e.operands = .ok (a, l) ∧ operations a l = .ok v := by
  unfold outcome
  rw [bind_eq_ok_iff, Prod.exists]

/-! ### By form -/

theorem operands_parens (w : Blanks) (e : Derivation (.chain .sum)) (w' : Blanks) :
    (parens w e w').operands = e.outcome.map fun v => (v, []) := by
  rw [operands, outcome]
  cases e.operands with
  | error m => rfl
  | ok x => rfl

theorem operands_single (e : Derivation level.operand) :
    (single e).operands = e.outcome.map fun v => (v, []) := by
  rw [operands, outcome]
  cases e.operands with
  | error m => rfl
  | ok x => rfl

theorem operands_more (e : Derivation (.chain level)) (op : Char) (hop : op ∈ level.ops)
    (w : Blanks) (e' : Derivation level.operand) :
    (more e op hop w e').operands =
      (e.operands >>= fun x => e'.outcome.map fun b => (x.1, x.2 ++ [(op, b)])) := by
  rw [operands, outcome]
  cases e.operands with
  | error m => rfl
  | ok x =>
    cases e'.operands with
    | error m => rfl
    | ok y => rfl

@[simp] theorem outcome_literal (n : Numeral) (w : Blanks) :
    (literal n w).outcome =
      if Word.Fits n.value then .ok n.value else .error n.overflow.message := by
  rw [outcome, operands]
  split
  · rfl
  · rfl

@[simp] theorem outcome_parens (w : Blanks) (e : Derivation (.chain .sum)) (w' : Blanks) :
    (parens w e w').outcome = e.outcome := by
  rw [outcome, operands_parens]
  cases e.outcome with
  | error m => rfl
  | ok v => rfl

@[simp] theorem outcome_single (e : Derivation level.operand) :
    (single e).outcome = e.outcome := by
  rw [outcome, operands_single]
  cases e.outcome with
  | error m => rfl
  | ok v => rfl

section Chains

variable {e : Derivation (.chain level)} {op : Char} {hop : op ∈ level.ops} {w : Blanks}
  {e' : Derivation level.operand}

theorem operands_more_eq_ok_iff :
    (more e op hop w e').operands = .ok (a, l) ↔
      ∃ l' b, e.operands = .ok (a, l') ∧ e'.outcome = .ok b ∧ l = l' ++ [(op, b)] := by
  rw [operands_more]
  cases e.operands with
  | error m => simp [bind, Except.bind]
  | ok x =>
    cases e'.outcome with
    | error m => simp [bind, Except.bind, Except.map]
    | ok b =>
      obtain ⟨a', l'⟩ := x
      simp only [bind, Except.bind, Except.map]
      constructor
      · intro h
        obtain ⟨rfl, rfl⟩ := Prod.mk.inj (Except.ok.inj h)
        exact ⟨l', b, rfl, rfl, rfl⟩
      · rintro ⟨l'', b', hoperands, hb, hl⟩
        obtain ⟨rfl, rfl⟩ := Prod.mk.inj (Except.ok.inj hoperands)
        rw [hl, Except.ok.inj hb]

theorem operands_more_eq_error_iff :
    (more e op hop w e').operands = .error m ↔
      e.operands = .error m ∨ ∃ a l, e.operands = .ok (a, l) ∧ e'.outcome = .error m := by
  rw [operands_more, bind_eq_error_iff, Prod.exists]
  cases e'.outcome with
  | error m' => simp [Except.map]
  | ok b => simp [Except.map]

/-- A chain has a value if it has one up to its last operator, the last operand
has one, and the operator can be applied to them. -/
theorem outcome_more_eq_ok_iff :
    (more e op hop w e').outcome = .ok v ↔
      ∃ n b, e.outcome = .ok n ∧ e'.outcome = .ok b ∧ operation n op b = .ok v := by
  rw [outcome_eq_ok_iff_operands]
  constructor
  · rintro ⟨a, l, hoperands, hl⟩
    obtain ⟨l', b, hfirst, hb, rfl⟩ := operands_more_eq_ok_iff.1 hoperands
    rw [operations_snoc] at hl
    obtain ⟨n, hn, hv⟩ := bind_eq_ok_iff.1 hl
    exact ⟨n, b, outcome_eq_ok_iff_operands.2 ⟨a, l', hfirst, hn⟩, hb, hv⟩
  · rintro ⟨n, b, he, hb, hv⟩
    obtain ⟨a, l', hfirst, hn⟩ := outcome_eq_ok_iff_operands.1 he
    refine ⟨a, l' ++ [(op, b)], operands_more_eq_ok_iff.2 ⟨l', b, hfirst, hb, rfl⟩, ?_⟩
    rw [operations_snoc]
    exact bind_eq_ok_iff.2 ⟨n, hn, hv⟩

end Chains

/-- A derivation has a value exactly if it is defined. -/
theorem outcome_eq_ok_iff {e : Derivation r} : e.outcome = .ok v ↔ e.Defined ∧ e.value = v := by
  induction e generalizing v with
  | literal n w =>
    rw [outcome_literal]
    by_cases hfits : Word.Fits n.value
    · simp [hfits, Defined, value]
    · simp [hfits, Defined]
  | parens w e w' ih =>
    rw [outcome_parens]
    exact ih
  | single e ih =>
    rw [outcome_single]
    exact ih
  | more e op hop w e' ih ih' =>
    rw [outcome_more_eq_ok_iff]
    constructor
    · rintro ⟨n, b, hn, hb, hv⟩
      obtain ⟨hdefined, rfl⟩ := ih.1 hn
      obtain ⟨hdefined', rfl⟩ := ih'.1 hb
      obtain ⟨hzero, hfits, hvalue⟩ := operation_eq_ok_iff.1 hv
      exact ⟨⟨hdefined, hdefined', hzero, hfits⟩, hvalue⟩
    · rintro ⟨⟨hdefined, hdefined', hzero, hfits⟩, hvalue⟩
      exact ⟨e.value, e'.value, ih.2 ⟨hdefined, rfl⟩, ih'.2 ⟨hdefined', rfl⟩,
        operation_eq_ok_iff.2 ⟨hzero, hfits, hvalue⟩⟩

/-- The operands of a chain are connected by operators of its level. -/
theorem operands_ops : {level : Level} → (e : Derivation (.chain level)) → {a : Int} →
    {l : List (Char × Int)} → e.operands = .ok (a, l) → ∀ x ∈ l, x.1 ∈ level.ops
  | _, single e, a, l, h => by
    rw [operands_single] at h
    cases hv : e.outcome with
    | error m =>
      rw [hv] at h
      cases h
    | ok v =>
      rw [hv] at h
      cases h
      nofun
  | _, more e op hop w e', a, l, h => by
    obtain ⟨l', b, hfirst, -, rfl⟩ := operands_more_eq_ok_iff.1 h
    intro x hx
    rcases List.mem_append.1 hx with hx | hx
    · exact operands_ops e hfirst x hx
    · rw [List.mem_singleton.1 hx]
      exact hop

/-- So the calculator folds them as they are evaluated. -/
theorem fold_operands {e : Derivation (.chain level)} (h : e.operands = .ok (a, l)) :
    fold a l = (operations a l).mapError .fatal :=
  fold_eq_operations (operands_ops e h)

end Derivation

end Triad.Calculator
