import Pvugc.Circuit.Synthesis

namespace Pvugc.Circuit

section Scope

variable {F : Type}

/-- The constant and the witnesses below a bound. -/
def Variable.Witnessed (bound : ℕ) : Variable → Prop
  | .one => True
  | .inputAt _ => False
  | .witnessAt index => index < bound

def LinearCombination.Witnessed (bound : ℕ) (lc : LinearCombination F) : Prop :=
  ∀ term ∈ lc, term.2.Witnessed bound

/-- A row that mentions no public input and no witness from the bound on. -/
structure Constraint.Witnessed (bound : ℕ) (row : Constraint F) : Prop where
  a : row.a.Witnessed bound
  b : row.b.Witnessed bound
  c : row.c.Witnessed bound

/-- Two assignments agree on the inputs and on the witnesses below a bound. -/
structure AgreeBelow (bound : ℕ) (z z' : Variable → F) : Prop where
  one : z .one = z' .one
  inputs : ∀ index, z (.inputAt index) = z' (.inputAt index)
  witnesses : ∀ index < bound, z (.witnessAt index) = z' (.witnessAt index)

theorem AgreeBelow.refl (bound : ℕ) (z : Variable → F) : AgreeBelow bound z z :=
  ⟨rfl, fun _ => rfl, fun _ _ => rfl⟩

theorem AgreeBelow.symm {bound : ℕ} {z z' : Variable → F} (agree : AgreeBelow bound z z') : AgreeBelow bound z' z :=
  ⟨agree.one.symm, fun index => (agree.inputs index).symm, fun index below => (agree.witnesses index below).symm⟩

theorem AgreeBelow.trans {bound bound' : ℕ} (le : bound ≤ bound') {z z' z'' : Variable → F}
    (first : AgreeBelow bound z z') (second : AgreeBelow bound' z' z'') : AgreeBelow bound z z'' where
  one := first.one.trans second.one
  inputs index := (first.inputs index).trans (second.inputs index)
  witnesses index below :=
    (first.witnesses index below).trans (second.witnesses index (Nat.lt_of_lt_of_le below le))

theorem AgreeBelow.mono {bound bound' : ℕ} (le : bound ≤ bound') {z z' : Variable → F}
    (agree : AgreeBelow bound' z z') : AgreeBelow bound z z' :=
  (AgreeBelow.refl bound z).trans le agree

theorem Variable.Witnessed.mono {bound bound' : ℕ} (le : bound ≤ bound') {var : Variable}
    (witnessed : var.Witnessed bound) : var.Witnessed bound' := by
  cases var with
  | one => trivial
  | inputAt index => exact witnessed
  | witnessAt index => exact Nat.lt_of_lt_of_le witnessed le

theorem Variable.Witnessed.value_eq {bound : ℕ} {var : Variable} (witnessed : var.Witnessed bound)
    {z z' : Variable → F} (agree : AgreeBelow bound z z') : z var = z' var := by
  cases var with
  | one => exact agree.one
  | inputAt index => exact witnessed.elim
  | witnessAt index => exact agree.witnesses index witnessed

theorem LinearCombination.Witnessed.mono {bound bound' : ℕ} (le : bound ≤ bound') {lc : LinearCombination F}
    (witnessed : lc.Witnessed bound) : lc.Witnessed bound' :=
  fun term member => (witnessed term member).mono le

variable [CommRing F]

theorem LinearCombination.Witnessed.evaluate_eq {bound : ℕ} {lc : LinearCombination F} (witnessed : lc.Witnessed bound)
    {z z' : Variable → F} (agree : AgreeBelow bound z z') : lc.evaluate z = lc.evaluate z' := by
  rw [evaluate, evaluate]
  congr 1
  apply List.map_congr_left
  intro term member
  rw [(witnessed term member).value_eq agree]

omit [CommRing F] in
theorem Constraint.Witnessed.mono {bound bound' : ℕ} (le : bound ≤ bound') {row : Constraint F}
    (witnessed : row.Witnessed bound) : row.Witnessed bound' :=
  ⟨witnessed.a.mono le, witnessed.b.mono le, witnessed.c.mono le⟩

/-- A row holds the same under assignments that agree on what it mentions. -/
theorem Constraint.Witnessed.holds_iff {bound : ℕ} {row : Constraint F} (witnessed : row.Witnessed bound)
    {z z' : Variable → F} (agree : AgreeBelow bound z z') : row.Holds z ↔ row.Holds z' := by
  rw [Holds, Holds, witnessed.a.evaluate_eq agree, witnessed.b.evaluate_eq agree, witnessed.c.evaluate_eq agree]

end Scope

section Steps

variable {F A B : Type}

/-- The rows that an action adds to a system. -/
def newRows (action : Synthesis F A) (cs : ConstraintSystem F) : List (Constraint F) :=
  (action.run cs).2.constraints.drop cs.constraints.length

/-- An action appends rows and witnesses, allocates no input, and its rows mention no input. -/
structure Scoped [CommRing F] (action : Synthesis F A) (cs : ConstraintSystem F) : Prop where
  instances : (action.run cs).2.instanceAssignment = cs.instanceAssignment
  witnesses : cs.witnessAssignment <+: (action.run cs).2.witnessAssignment
  constraints : (action.run cs).2.constraints = cs.constraints ++ newRows action cs
  scope : ∀ row ∈ newRows action cs, row.Witnessed (action.run cs).2.witnessAssignment.length

variable [CommRing F] {action : Synthesis F A} {cs : ConstraintSystem F}

theorem Scoped.grows (inScope : Scoped action cs) :
    cs.witnessAssignment.length ≤ (action.run cs).2.witnessAssignment.length := inScope.witnesses.length_le

/-- The values that the synthesis has assigned stay. -/
theorem Scoped.agree (inScope : Scoped action cs) :
    AgreeBelow cs.witnessAssignment.length cs.assignment (action.run cs).2.assignment where
  one := rfl
  inputs index := congrArg (List.getD · index 0) inScope.instances.symm
  witnesses index below := by
    obtain ⟨rest, append⟩ := inScope.witnesses
    simp only [ConstraintSystem.assignment, List.getD_eq_getElem?_getD, ← append]
    rw [List.getElem?_append_left below]

omit [CommRing F] in
theorem newRows_pure (x : A) (cs : ConstraintSystem F) : newRows (pure x : Synthesis F A) cs = [] :=
  List.drop_length

theorem Scoped.pure (x : A) (cs : ConstraintSystem F) : Scoped (pure x : Synthesis F A) cs where
  instances := rfl
  witnesses := List.prefix_rfl
  constraints := by
    rw [newRows_pure, List.append_nil]
    rfl
  scope := by
    rw [newRows_pure]
    nofun

section Bind

variable {next : A → Synthesis F B} (first : Scoped action cs)
variable (second : Scoped (next (action.run cs).1) (action.run cs).2)
include first second

theorem newRows_bind : newRows (action >>= next) cs =
    newRows action cs ++ newRows (next (action.run cs).1) (action.run cs).2 := by
  have rows : ((action >>= next).run cs).2.constraints = _ := second.constraints
  rw [newRows, rows, first.constraints, List.append_assoc, List.drop_left]

theorem Scoped.bind : Scoped (action >>= next) cs where
  instances := second.instances.trans first.instances
  witnesses := first.witnesses.trans second.witnesses
  constraints := by
    rw [newRows_bind first second, ← List.append_assoc, ← first.constraints]
    exact second.constraints
  scope := by
    rw [newRows_bind first second, List.forall_mem_append]
    exact ⟨fun row member => (first.scope row member).mono second.grows, second.scope⟩

end Bind

end Steps

section Shapes

variable {F A B : Type}

/-- Two systems with the same rows and as many values, whatever the values are. -/
structure SameShape (cs cs' : ConstraintSystem F) : Prop where
  instances : cs.instanceAssignment.length = cs'.instanceAssignment.length
  witnesses : cs.witnessAssignment.length = cs'.witnessAssignment.length
  constraints : cs.constraints = cs'.constraints

/-- Two actions that differ in the values they assign only. -/
def Oblivious (action action' : Synthesis F A) : Prop :=
  ∀ cs cs', SameShape cs cs' → (action.run cs).1 = (action'.run cs').1 ∧ SameShape (action.run cs).2 (action'.run cs').2

theorem Oblivious.pure (x : A) : Oblivious (pure x : Synthesis F A) (pure x) := fun _ _ same => ⟨rfl, same⟩

theorem Oblivious.bind {action action' : Synthesis F A} {next next' : A → Synthesis F B}
    (first : Oblivious action action') (rest : ∀ x, Oblivious (next x) (next' x)) :
    Oblivious (action >>= next) (action' >>= next') := by
  intro cs cs' same
  obtain ⟨value, shape⟩ := first cs cs' same
  have second := rest (action.run cs).1 _ _ shape
  have after : ((action' >>= next').run cs') = (next' (action.run cs).1).run (action'.run cs').2 := by
    rw [value]
    rfl
  rw [after]
  exact second

theorem Oblivious.foldlM {I : Type} {step : A → I → Synthesis F A} (items : List I) (x : A)
    (steps : ∀ x item, Oblivious (step x item) (step x item)) :
    Oblivious (items.foldlM step x) (items.foldlM step x) := by
  induction items generalizing x with
  | nil => exact .pure x
  | cons item rest ih => exact (steps x item).bind ih

theorem Oblivious.mapSome {action action' : Synthesis F A} (oblivious : Oblivious action action') :
    Oblivious (some <$> action) (some <$> action') := by
  rw [← bind_pure_comp, ← bind_pure_comp]
  exact oblivious.bind fun x => .pure (some x)

end Shapes

section Gadgets

variable {F A B V W : Type} [CommRing F]

/-- How an assignment gives values to the variables of a type, from the witnesses that they are made of. -/
structure Reading (F V A : Type) [CommRing F] where
  value : (Variable → F) → V → A
  Allocated : ℕ → V → Prop
  mono : ∀ {bound bound' v}, bound ≤ bound' → Allocated bound v → Allocated bound' v
  stable : ∀ {bound v z z'}, Allocated bound v → AgreeBelow bound z z' → value z v = value z' v

/-- A condition on the inputs and the witnesses below a bound. -/
def StableBelow (bound : ℕ) (condition : (Variable → F) → Prop) : Prop :=
  ∀ {z z'}, AgreeBelow bound z z' → condition z → condition z'

/-- Under a condition on what was allocated before, the rows of an action determine the value of its variable, every
assignment can be extended to meet them, and the synthesis itself assigns such an extension. -/
structure Computes (R : Reading F V A) (condition : (Variable → F) → Prop) (action : Synthesis F V)
    (cs : ConstraintSystem F) (result : (Variable → F) → A) : Prop where
  inScope : Scoped action cs
  allocated : R.Allocated (action.run cs).2.witnessAssignment.length (action.run cs).1
  sound : ∀ z, z .one = 1 → condition z → (∀ row ∈ newRows action cs, row.Holds z) →
    R.value z (action.run cs).1 = result z
  complete : ∀ z, z .one = 1 → condition z →
    ∃ z', AgreeBelow cs.witnessAssignment.length z z' ∧ ∀ row ∈ newRows action cs, row.Holds z'
  honest : condition cs.assignment → ∀ row ∈ newRows action cs, row.Holds (action.run cs).2.assignment

/-- The variables of a list, read one by one. -/
def Reading.list (R : Reading F V A) : Reading F (List V) (List A) where
  value z vs := vs.map (R.value z)
  Allocated bound vs := ∀ v ∈ vs, R.Allocated bound v
  mono le allocated v member := R.mono le (allocated v member)
  stable allocated agree := List.map_congr_left fun v member => R.stable (allocated v member) agree

/-- A variable that may be missing. -/
def Reading.option (R : Reading F V A) : Reading F (Option V) (Option A) where
  value z v := v.map (R.value z)
  Allocated bound v := ∀ w ∈ v, R.Allocated bound w
  mono le allocated w member := R.mono le (allocated w member)
  stable {bound v z z'} allocated agree := by
    cases v with
    | none => rfl
    | some w => exact congrArg some (R.stable (allocated w rfl) agree)

variable {R : Reading F V A} {S : Reading F W B} {condition : (Variable → F) → Prop}
variable {action : Synthesis F V} {cs : ConstraintSystem F}

omit [CommRing F] in
theorem StableBelow.mono {bound bound' : ℕ} (le : bound ≤ bound') (stable : StableBelow bound condition) :
    StableBelow bound' condition := fun agree => stable (agree.mono le)

/-- A variable at hand is computed without rows. -/
theorem Computes.pure {v : V} (allocated : R.Allocated cs.witnessAssignment.length v) :
    Computes R condition (pure v) cs fun z => R.value z v where
  inScope := Scoped.pure v cs
  allocated := allocated
  sound _ _ _ _ := rfl
  complete z _ _ := ⟨z, AgreeBelow.refl _ z, by rw [newRows_pure]; nofun⟩
  honest _ := by
    rw [newRows_pure]
    nofun

theorem Computes.weaken {condition' : (Variable → F) → Prop} {result : (Variable → F) → A}
    (computes : Computes R condition action cs result) (weaker : ∀ z, condition' z → condition z) :
    Computes R condition' action cs result where
  inScope := computes.inScope
  allocated := computes.allocated
  sound z one holds := computes.sound z one (weaker z holds)
  complete z one holds := computes.complete z one (weaker z holds)
  honest holds := computes.honest (weaker _ holds)

/-- A gadget computes whatever equals its result where its condition holds. -/
theorem Computes.congr {result result' : (Variable → F) → A} (computes : Computes R condition action cs result)
    (same : ∀ z, z .one = 1 → condition z → result z = result' z) : Computes R condition action cs result' where
  inScope := computes.inScope
  allocated := computes.allocated
  sound z one holds rows := (computes.sound z one holds rows).trans (same z one holds)
  complete := computes.complete
  honest := computes.honest

/-- A gadget that uses the variable of another one computes from its value. -/
theorem Computes.bind {next : V → Synthesis F W} {first : (Variable → F) → A} (result : (Variable → F) → A → B)
    (stable : StableBelow cs.witnessAssignment.length condition) (computes : Computes R condition action cs first)
    (rest : Computes S condition (next (action.run cs).1) (action.run cs).2
      fun z => result z (R.value z (action.run cs).1)) :
    Computes S condition (action >>= next) cs fun z => result z (first z) where
  inScope := computes.inScope.bind rest.inScope
  allocated := rest.allocated
  sound z one holds rows := by
    rw [newRows_bind computes.inScope rest.inScope, List.forall_mem_append] at rows
    rw [← computes.sound z one holds rows.1]
    exact rest.sound z one holds rows.2
  complete z one holds := by
    obtain ⟨z', agree, rows⟩ := computes.complete z one holds
    obtain ⟨z'', agree', rows'⟩ := rest.complete z' (agree.one.symm.trans one) (stable agree holds)
    refine ⟨z'', agree.trans computes.inScope.grows agree', ?_⟩
    rw [newRows_bind computes.inScope rest.inScope, List.forall_mem_append]
    exact ⟨fun row member => ((computes.inScope.scope row member).holds_iff agree').mp (rows row member), rows'⟩
  honest holds := by
    rw [newRows_bind computes.inScope rest.inScope, List.forall_mem_append]
    exact ⟨fun row member =>
        ((computes.inScope.scope row member).holds_iff rest.inScope.agree).mp (computes.honest holds row member),
      rest.honest (stable computes.inScope.agree holds)⟩

/-- The rule for a gadget whose rest computes from any allocated variable in any later system. -/
theorem Computes.andThen {next : V → Synthesis F W} {first : (Variable → F) → A} (result : (Variable → F) → A → B)
    (stable : StableBelow cs.witnessAssignment.length condition) (computes : Computes R condition action cs first)
    (rest : ∀ v cs', cs.witnessAssignment.length ≤ cs'.witnessAssignment.length →
      R.Allocated cs'.witnessAssignment.length v → StableBelow cs'.witnessAssignment.length condition →
      Computes S condition (next v) cs' fun z => result z (R.value z v)) :
    Computes S condition (action >>= next) cs fun z => result z (first z) :=
  computes.bind result stable
    (rest _ _ computes.inScope.grows computes.allocated (stable.mono computes.inScope.grows))

theorem Computes.mapSome {result : (Variable → F) → A} (stable : StableBelow cs.witnessAssignment.length condition)
    (computes : Computes R condition action cs result) :
    Computes R.option condition (some <$> action) cs fun z => some (result z) := by
  rw [← bind_pure_comp]
  refine computes.andThen (fun _ value => some value) stable fun v cs' _ allocated _ => ?_
  exact Computes.pure (R := R.option) (v := some v) fun w member => Option.some.inj member ▸ allocated

section Choices

variable {C D : Type}

/-- The rows of an action leave its variable free: an assignment can be extended by the value of every choice, and the
synthesis extends its own by the given one. -/
structure Chooses (R : Reading F V A) (action : Synthesis F V) (cs : ConstraintSystem F)
    (result : (Variable → F) → C → A) (choice : C) : Prop where
  inScope : Scoped action cs
  allocated : R.Allocated (action.run cs).2.witnessAssignment.length (action.run cs).1
  choose : ∀ z c, z .one = 1 → ∃ z', AgreeBelow cs.witnessAssignment.length z z' ∧
    (∀ row ∈ newRows action cs, row.Holds z') ∧ R.value z' (action.run cs).1 = result z c
  honest : ∀ row ∈ newRows action cs, row.Holds (action.run cs).2.assignment
  assigned : R.value (action.run cs).2.assignment (action.run cs).1 = result cs.assignment choice

theorem Chooses.pure {v : V} (allocated : R.Allocated cs.witnessAssignment.length v) :
    Chooses R (pure v) cs (fun z (_ : Unit) => R.value z v) () where
  inScope := Scoped.pure v cs
  allocated := allocated
  choose z _ _ := ⟨z, AgreeBelow.refl _ z, by rw [newRows_pure]; nofun, rfl⟩
  honest := by
    rw [newRows_pure]
    nofun
  assigned := rfl

theorem Chooses.relabel {result : (Variable → F) → C → A} (f : D → C) {choice : D}
    (chooses : Chooses R action cs result (f choice)) :
    Chooses R action cs (fun z d => result z (f d)) choice where
  inScope := chooses.inScope
  allocated := chooses.allocated
  choose z d := chooses.choose z (f d)
  honest := chooses.honest
  assigned := chooses.assigned

/-- Free variables one after the other are free together. -/
theorem Chooses.andThen {next : V → Synthesis F W} {first : (Variable → F) → C → A} {c : C} {d : D}
    (result : (Variable → F) → A → D → B)
    (stable : ∀ {z z'} a d, AgreeBelow cs.witnessAssignment.length z z' → result z a d = result z' a d)
    (chooses : Chooses R action cs first c)
    (rest : ∀ v cs', cs.witnessAssignment.length ≤ cs'.witnessAssignment.length →
      R.Allocated cs'.witnessAssignment.length v → Chooses S (next v) cs' (fun z d => result z (R.value z v) d) d) :
    Chooses S (action >>= next) cs (fun z (both : C × D) => result z (first z both.1) both.2) (c, d) := by
  have second := rest _ _ chooses.inScope.grows chooses.allocated
  refine ⟨chooses.inScope.bind second.inScope, second.allocated, ?_, ?_, ?_⟩
  · rintro z ⟨c, d⟩ one
    obtain ⟨z', agree, rows, value⟩ := chooses.choose z c one
    obtain ⟨z'', agree', rows', value'⟩ := second.choose z' d (agree.one.symm.trans one)
    refine ⟨z'', agree.trans chooses.inScope.grows agree', ?_, ?_⟩
    · rw [newRows_bind chooses.inScope second.inScope, List.forall_mem_append]
      exact ⟨fun row member => ((chooses.inScope.scope row member).holds_iff agree').mp (rows row member), rows'⟩
    · rw [value, ← stable _ d agree] at value'
      exact value'
  · rw [newRows_bind chooses.inScope second.inScope, List.forall_mem_append]
    exact ⟨fun row member =>
      ((chooses.inScope.scope row member).holds_iff second.inScope.agree).mp (chooses.honest row member),
      second.honest⟩
  · have value := second.assigned
    rw [chooses.assigned, ← stable _ d chooses.inScope.agree] at value
    exact value

end Choices

/-- A loop whose steps compute from the accumulator computes the fold. -/
theorem Computes.foldlM {I : Type} {step : V → I → Synthesis F V} {f : (Variable → F) → A → I → A} {items : List I}
    {v : V} (stable : StableBelow cs.witnessAssignment.length condition)
    (steps : ∀ item ∈ items, ∀ cs' v', cs.witnessAssignment.length ≤ cs'.witnessAssignment.length →
      R.Allocated cs'.witnessAssignment.length v' →
      Computes R condition (step v' item) cs' fun z => f z (R.value z v') item)
    (allocated : R.Allocated cs.witnessAssignment.length v) :
    Computes R condition (items.foldlM step v) cs fun z => items.foldl (f z) (R.value z v) := by
  induction items generalizing cs v with
  | nil => exact Computes.pure allocated
  | cons item rest ih =>
      obtain ⟨first, others⟩ := List.forall_mem_cons.mp steps
      have head := first cs v (Nat.le_refl _) allocated
      have grows := head.inScope.grows
      rw [List.foldlM_cons]
      exact head.bind (fun z value => rest.foldl (f z) value) stable (ih (stable.mono grows)
        (fun item member cs' v' le => others item member cs' v' (Nat.le_trans grows le)) head.allocated)

end Gadgets

end Pvugc.Circuit
