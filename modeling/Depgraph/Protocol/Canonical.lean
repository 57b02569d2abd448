import Depgraph.Protocol.Condition

/-!
# Canonicalization preserves the meaning and is idempotent

* `holds_canonicalized`: the canonical form has the meaning of the condition. The sort and the
  removal of repeats keep, for every operand, an operand that `==` calls equal
  (`SortDedup.sortDedup_covers`), and equal conditions have one meaning (`holds_of_beq`).
* `canonicalized_idem`: canonical forms satisfy `Canonical`, and canonicalization leaves every
  condition that satisfies it alone. Nothing is assumed about the values here.

Both are proved for `canonicalizedWith` and every reduction of operands with the property used.
-/

namespace Protocol

open Json SortDedup

/-! ### Equality of primitive values -/

theorem numEq_refl (n : Number) : n.numEq n = true := by
  cases n with
  | int n => exact beq_self_eq_true n
  | float f => exact f.numEq_refl

theorem numEq_congr {m n : Number} (h : m.numEq n = true) (k : Number) :
    k.numEq m = k.numEq n := by
  cases m <;> cases n <;> cases k <;> simp only [Number.numEq, Bool.false_eq_true] at h ⊢
  · rw [beq_iff_eq.1 h]
  · exact Bool.eq_iff_iff.2 ⟨fun hk => F64.numEq_trans hk h,
      fun hk => F64.numEq_trans hk (F64.numEq_symm h)⟩

theorem beq_eq (v w : Value) : (v == w) = v.beq w := rfl

theorem beq_refl_of_primitive {v : Value} (h : v.isPrimitive = true) : (v == v) = true := by
  rw [beq_eq]
  cases v <;> simp_all [Value.beq, Value.isPrimitive, numEq_refl]

/-- Primitive values that are equal are equal to the same values. -/
theorem beq_congr_of_primitive {v v' : Value} (h : v.isPrimitive = true) (heq : (v == v') = true)
    (w : Value) : (w == v) = (w == v') := by
  simp only [beq_eq] at heq ⊢
  cases v <;> cases v' <;> simp_all only [Value.beq, Value.isPrimitive, Bool.false_eq_true]
  case bool.bool => simp_all
  case string.string => simp_all
  case number.number m n =>
    cases w <;> simp only [Value.beq]
    exact numEq_congr heq _

namespace Condition

/-! ### Conditions over primitive values -/

/-- The values of a condition are the JSON primitives that `validate` admits. -/
inductive Primitive : Condition → Prop
  | all {cs : List Condition} (h : ∀ c ∈ cs, Primitive c) : Primitive (.all cs)
  | any {cs : List Condition} (h : ∀ c ∈ cs, Primitive c) : Primitive (.any cs)
  | not {c : Condition} (h : Primitive c) : Primitive (.not c)
  | eq {k : String} {v : Value} (h : isConditionPrimitive v = true) : Primitive (.eq k v)
  | isIn {k : String} {vs : List Value} (h : ∀ v ∈ vs, isConditionPrimitive v = true) :
      Primitive (.isIn k vs)
  | defined (k : String) : Primitive (.defined k)

/-- The values of a condition have a property. -/
inductive Over (P : Value → Prop) : Condition → Prop
  | all {cs : List Condition} (h : ∀ c ∈ cs, Over P c) : Over P (.all cs)
  | any {cs : List Condition} (h : ∀ c ∈ cs, Over P c) : Over P (.any cs)
  | not {c : Condition} (h : Over P c) : Over P (.not c)
  | eq {k : String} {v : Value} (h : P v) : Over P (.eq k v)
  | isIn {k : String} {vs : List Value} (h : ∀ v ∈ vs, P v) : Over P (.isIn k vs)
  | defined (k : String) : Over P (.defined k)

theorem Over.mono {P Q : Value → Prop} (hPQ : ∀ v, P v → Q v) {c : Condition} (h : Over P c) :
    Over Q c := by
  induction h with
  | all _ ih => exact .all ih
  | any _ ih => exact .any ih
  | not _ ih => exact .not ih
  | eq h => exact .eq (hPQ _ h)
  | isIn h => exact .isIn fun v hv => hPQ v (h v hv)
  | defined k => exact .defined k

theorem primitive_iff_over {c : Condition} :
    Primitive c ↔ Over (isConditionPrimitive · = true) c := by
  constructor
  · intro h
    induction h with
    | all _ ih => exact .all ih
    | any _ ih => exact .any ih
    | not _ ih => exact .not ih
    | eq h => exact .eq h
    | isIn h => exact .isIn h
    | defined k => exact .defined k
  · intro h
    induction h with
    | all _ ih => exact .all ih
    | any _ ih => exact .any ih
    | not _ ih => exact .not ih
    | eq h => exact .eq h
    | isIn h => exact .isIn h
    | defined k => exact .defined k

theorem validateEach_ok {cs : List Condition} (h : validateEach cs = .ok ()) :
    ∀ c ∈ cs, c.validate = .ok () := by
  induction cs with
  | nil => intro c hc; cases hc
  | cons d cs ih =>
    simp only [validateEach, bind, Except.bind] at h
    split at h
    · cases h
    · rename_i u hd
      exact List.forall_mem_cons.2 ⟨hd, ih h⟩

/-- Validated conditions are over primitive values. -/
theorem Primitive.of_validate {c : Condition} (h : c.validate = .ok ()) : Primitive c := by
  induction c with
  | all cs ih => exact .all fun c hc => ih c hc (validateEach_ok h c hc)
  | any cs ih => exact .any fun c hc => ih c hc (validateEach_ok h c hc)
  | not c ih => exact .not (ih h)
  | eq k v =>
    simp only [validate, bind, Except.bind] at h
    split at h
    · cases h
    · cases hv : isConditionPrimitive v with
      | true => exact .eq hv
      | false => simp [hv, invariant] at h
  | isIn k vs =>
    simp only [validate, bind, Except.bind] at h
    split at h
    · cases h
    · cases hv : vs.any fun value => !isConditionPrimitive value with
      | true => simp [hv, invariant] at h
      | false => exact .isIn fun v hv' => by simpa using List.any_eq_false.1 hv v hv'
  | defined k => exact .defined k

section Meaning

variable (env : Assignment)

theorem holdsAll_eq (cs : List Condition) : holdsAll env cs = cs.all (holds env) := by
  induction cs with
  | nil => rfl
  | cons c cs ih => simp [holdsAll, ih]

theorem holdsAny_eq (cs : List Condition) : holdsAny env cs = cs.any (holds env) := by
  induction cs with
  | nil => rfl
  | cons c cs ih => simp [holdsAny, ih]

@[simp] theorem holds_all (cs : List Condition) : holds env (.all cs) = cs.all (holds env) :=
  holdsAll_eq env cs

@[simp] theorem holds_any (cs : List Condition) : holds env (.any cs) = cs.any (holds env) :=
  holdsAny_eq env cs

@[simp] theorem holds_not (c : Condition) : holds env (.not c) = !holds env c := rfl

theorem any_congr_of_beqItems {vs ws : List Value} (h : beqItems vs ws = true)
    (hv : ∀ v ∈ vs, v.isPrimitive = true) (w : Value) :
    vs.any (w == ·) = ws.any (w == ·) := by
  induction vs generalizing ws with
  | nil =>
    cases ws with
    | nil => rfl
    | cons => cases h
  | cons v vs ih =>
    cases ws with
    | nil => cases h
    | cons u ws =>
      obtain ⟨hu, hrest⟩ := Bool.and_eq_true_iff.1 h
      obtain ⟨hp, hps⟩ := List.forall_mem_cons.1 hv
      simp only [List.any_cons, beq_congr_of_primitive hp hu w, ih hrest hps]

mutual

/-- **Equal conditions have one meaning.** -/
theorem holds_of_beq (c d : Condition) (hc : Primitive c) (h : c.beq d = true) :
    c.holds env = d.holds env := by
  match c, d, hc with
  | .all cs, .all ds, .all hcs => simpa using (forall₂_holds_of_beq cs ds hcs h).1
  | .any cs, .any ds, .any hcs => simpa using (forall₂_holds_of_beq cs ds hcs h).2
  | .not c, .not d, .not hc => simp [holds_of_beq c d hc h]
  | .eq k v, .eq l w, .eq hv =>
    obtain ⟨hk, hvw⟩ := Bool.and_eq_true_iff.1 h
    simp only [holds, beq_iff_eq.1 hk, beq_congr_of_primitive hv hvw]
  | .isIn k vs, .isIn l ws, .isIn hvs =>
    obtain ⟨hk, hvw⟩ := Bool.and_eq_true_iff.1 h
    simp only [holds, beq_iff_eq.1 hk, any_congr_of_beqItems hvw hvs]
  | .defined k, .defined l, _ => simp only [holds, beq_iff_eq.1 h]

theorem forall₂_holds_of_beq (cs ds : List Condition) (hc : ∀ c ∈ cs, Primitive c)
    (h : beqEach cs ds = true) :
    cs.all (holds env) = ds.all (holds env) ∧ cs.any (holds env) = ds.any (holds env) := by
  match cs, ds with
  | [], [] => exact ⟨rfl, rfl⟩
  | c :: cs, d :: ds =>
    obtain ⟨hcd, hrest⟩ := Bool.and_eq_true_iff.1 h
    obtain ⟨hp, hps⟩ := List.forall_mem_cons.1 hc
    have hhead := holds_of_beq c d hp hcd
    obtain ⟨hall, hany⟩ := forall₂_holds_of_beq cs ds hps hrest
    simp only [List.all_cons, List.any_cons, hhead, hall, hany, and_self]

end

end Meaning

theorem beqItems_refl {vs : List Value} (h : ∀ v ∈ vs, v.isPrimitive = true) :
    beqItems vs vs = true := by
  induction vs with
  | nil => rfl
  | cons v vs ih =>
    obtain ⟨hv, hvs⟩ := List.forall_mem_cons.1 h
    exact Bool.and_eq_true_iff.2 ⟨beq_refl_of_primitive hv, ih hvs⟩

theorem beqEach_refl {cs : List Condition} (h : ∀ c ∈ cs, c.beq c = true) :
    beqEach cs cs = true := by
  induction cs with
  | nil => rfl
  | cons c cs ih =>
    obtain ⟨hc, hcs⟩ := List.forall_mem_cons.1 h
    exact Bool.and_eq_true_iff.2 ⟨hc, ih hcs⟩

theorem Primitive.beq_refl {c : Condition} (h : Primitive c) : c.beq c = true := by
  induction h with
  | all _ ih => exact beqEach_refl ih
  | any _ ih => exact beqEach_refl ih
  | not _ ih => exact ih
  | eq hv => exact Bool.and_eq_true_iff.2 ⟨beq_self_eq_true _, beq_refl_of_primitive hv⟩
  | isIn hvs => exact Bool.and_eq_true_iff.2 ⟨beq_self_eq_true _, beqItems_refl hvs⟩
  | defined k => exact beq_self_eq_true k

/-! ### Flattening -/

section Flatten

theorem mem_flattenAll {cs : List Condition} {x : Condition} :
    x ∈ flattenAll cs ↔ ∃ c ∈ cs, (∃ ds, c = .all ds ∧ x ∈ ds) ∨ (x = c ∧ ∀ ds, c ≠ .all ds) := by
  induction cs using flattenAll.induct with
  | case1 => simp [flattenAll]
  | case2 ds rest ih => simp [flattenAll, ih]
  | case3 c rest hc ih =>
    rw [flattenAll]
    · have hne : ∀ ds, c ≠ .all ds := fun ds h => hc ds h
      simp only [List.mem_cons, ih, exists_eq_or_imp, hne, false_and, exists_false, false_or,
        ne_eq, not_false_eq_true, implies_true, and_true]
    · exact hc

theorem flattenAny_eq_none {cs : List Condition} : flattenAny cs = none ↔ .all [] ∈ cs := by
  induction cs using flattenAny.induct with
  | case1 => simp [flattenAny]
  | case2 => simp [flattenAny]
  | case3 ds rest ih => simp [flattenAny, ih]
  | case4 c rest hc hany ih =>
    rw [flattenAny]
    · simp only [Option.map_eq_none_iff, ih, List.mem_cons]
      exact ⟨Or.inr, fun h => h.resolve_left fun h => hc h.symm⟩
    · exact hc
    · exact hany

theorem mem_flattenAny {cs l : List Condition} (h : flattenAny cs = some l) {x : Condition} :
    x ∈ l ↔ ∃ c ∈ cs, (∃ ds, c = .any ds ∧ x ∈ ds) ∨ (x = c ∧ ∀ ds, c ≠ .any ds) := by
  induction cs using flattenAny.induct generalizing l with
  | case1 => cases h; simp
  | case2 => cases h
  | case3 ds rest ih =>
    obtain ⟨l', hl', rfl⟩ := Option.map_eq_some_iff.1 h
    simp [ih hl']
  | case4 c rest hc hany ih =>
    rw [flattenAny] at h
    · obtain ⟨l', hl', rfl⟩ := Option.map_eq_some_iff.1 h
      have hne : ∀ ds, c ≠ .any ds := fun ds h => hany ds h
      simp only [List.mem_cons, ih hl', exists_eq_or_imp, hne, false_and, exists_false, false_or,
        ne_eq, not_false_eq_true, implies_true, and_true]
    · exact hc
    · exact hany

theorem canonicalizedEach_eq (F : FloatText) (reduce : List Condition → List Condition)
    (cs : List Condition) :
    canonicalizedEach F reduce cs = cs.map (canonicalizedWith F reduce) := by
  induction cs with
  | nil => rfl
  | cons c cs ih => rw [canonicalizedEach, ih, List.map_cons]

theorem forall_canonicalizedEach {F : FloatText} {P : Condition → Prop}
    {reduce : List Condition → List Condition}
    {cs : List Condition} (h : ∀ c ∈ cs, P (canonicalizedWith F reduce c)) :
    ∀ c ∈ canonicalizedEach F reduce cs, P c := by
  rw [canonicalizedEach_eq]
  exact List.forall_mem_map.2 h

variable (env : Assignment)

theorem all_flattenAll (cs : List Condition) :
    (flattenAll cs).all (holds env) = cs.all (holds env) := by
  induction cs using flattenAll.induct with
  | case1 => rfl
  | case2 ds rest ih => simp [flattenAll, ih]
  | case3 c rest hc ih =>
    rw [flattenAll]
    · simp [ih]
    · exact hc

theorem any_flattenAny (cs : List Condition) :
    cs.any (holds env) = ((flattenAny cs).map (·.any (holds env))).getD true := by
  induction cs using flattenAny.induct with
  | case1 => rfl
  | case2 => simp [flattenAny]
  | case3 ds rest ih =>
    rw [List.any_cons, ih, flattenAny]
    cases flattenAny rest <;> simp
  | case4 c rest hc hany ih =>
    rw [List.any_cons, ih, flattenAny]
    · cases flattenAny rest <;> simp
    · exact hc
    · exact hany

theorem holds_collapseAll (cs : List Condition) :
    holds env (collapseAll cs) = cs.all (holds env) := by
  unfold collapseAll
  split <;> simp

theorem holds_collapseAny (cs : List Condition) :
    holds env (collapseAny cs) = cs.any (holds env) := by
  unfold collapseAny
  split <;> simp

theorem holds_canonicalizeNot (c : Condition) :
    holds env (canonicalizeNot c) = !holds env c := by
  unfold canonicalizeNot
  split <;> simp

end Flatten

/-! ### The shape of canonical forms -/

section Shape

/-- The shape of canonical forms: nested operators are flattened, identities and double negations
are gone, no operator has a single operand, and the operands and the values of `isIn` are reduced. -/
inductive CanonicalWith (Values : List Value → Prop) (Reduced : List Condition → Prop) :
    Condition → Prop
  | all {cs : List Condition} (operands : ∀ c ∈ cs, CanonicalWith Values Reduced c)
      (flat : ∀ c ∈ cs, ∀ ds, c ≠ .all ds) (reduced : Reduced cs) (length : cs.length ≠ 1) :
      CanonicalWith Values Reduced (.all cs)
  | any {cs : List Condition} (operands : ∀ c ∈ cs, CanonicalWith Values Reduced c)
      (flat : ∀ c ∈ cs, c ≠ .all [] ∧ ∀ ds, c ≠ .any ds) (reduced : Reduced cs)
      (length : cs.length ≠ 1) : CanonicalWith Values Reduced (.any cs)
  | not {c : Condition} (operand : CanonicalWith Values Reduced c) (single : ∀ d, c ≠ .not d) :
      CanonicalWith Values Reduced (.not c)
  | eq (k : String) (v : Value) : CanonicalWith Values Reduced (.eq k v)
  | isIn {k : String} {vs : List Value} (values : Values vs) (length : vs.length ≠ 1) :
      CanonicalWith Values Reduced (.isIn k vs)
  | defined (k : String) : CanonicalWith Values Reduced (.defined k)

variable {F : FloatText} {Values : List Value → Prop} {Reduced : List Condition → Prop}
  {reduce : List Condition → List Condition}

theorem canonicalizeIn_shape (k : String) {vs : List Value}
    (h : Values (sortDedup (Value.text F) (· == ·) vs)) :
    CanonicalWith Values Reduced (canonicalizeIn F k vs) := by
  unfold canonicalizeIn
  split
  · exact .eq _ _
  · rename_i hne
    exact .isIn h fun hlen => (List.length_eq_one_iff.1 hlen).elim hne

theorem canonicalizeNot_shape {c : Condition} (h : CanonicalWith Values Reduced c) :
    CanonicalWith Values Reduced (canonicalizeNot c) := by
  unfold canonicalizeNot
  split
  · cases h with
    | not operand _ => exact operand
  · rename_i hne
    exact .not h hne

theorem collapseAll_shape {cs : List Condition} (h : ∀ c ∈ cs, CanonicalWith Values Reduced c)
    (hflat : ∀ c ∈ cs, ∀ ds, c ≠ .all ds) (hred : Reduced cs) :
    CanonicalWith Values Reduced (collapseAll cs) := by
  unfold collapseAll
  split
  · exact h _ List.mem_cons_self
  · rename_i hne
    exact .all h hflat hred fun hlen => (List.length_eq_one_iff.1 hlen).elim hne

theorem collapseAny_shape {cs : List Condition} (h : ∀ c ∈ cs, CanonicalWith Values Reduced c)
    (hflat : ∀ c ∈ cs, c ≠ .all [] ∧ ∀ ds, c ≠ .any ds) (hred : Reduced cs) :
    CanonicalWith Values Reduced (collapseAny cs) := by
  unfold collapseAny
  split
  · exact h _ List.mem_cons_self
  · rename_i hne
    exact .any h hflat hred fun hlen => (List.length_eq_one_iff.1 hlen).elim hne

theorem flattenAll_shape {cs : List Condition} (h : ∀ c ∈ cs, CanonicalWith Values Reduced c) :
    ∀ x ∈ flattenAll cs, CanonicalWith Values Reduced x ∧ ∀ ds, x ≠ .all ds := by
  intro x hx
  obtain ⟨c, hc, ⟨ds, rfl, hxds⟩ | ⟨rfl, hne⟩⟩ := mem_flattenAll.1 hx
  · cases h _ hc with
    | all operands flat _ _ => exact ⟨operands x hxds, flat x hxds⟩
  · exact ⟨h x hc, hne⟩

theorem flattenAny_shape {cs l : List Condition} (h : ∀ c ∈ cs, CanonicalWith Values Reduced c)
    (hl : flattenAny cs = some l) :
    ∀ x ∈ l, CanonicalWith Values Reduced x ∧ x ≠ .all [] ∧ ∀ ds, x ≠ .any ds := by
  intro x hx
  obtain ⟨c, hc, ⟨ds, rfl, hxds⟩ | ⟨rfl, hne⟩⟩ := (mem_flattenAny hl).1 hx
  · cases h _ hc with
    | any operands flat _ _ => exact ⟨operands x hxds, flat x hxds⟩
  · refine ⟨h x hc, fun htrue => ?_, hne⟩
    rw [flattenAny_eq_none.2 (htrue ▸ hc)] at hl
    cases hl

theorem canonicalizeAll_shape (hsub : ∀ l, reduce l ⊆ l) (hred : ∀ l, Reduced (reduce l))
    {cs : List Condition} (h : ∀ c ∈ cs, CanonicalWith Values Reduced c) :
    CanonicalWith Values Reduced (canonicalizeAll reduce cs) :=
  have hflat := flattenAll_shape h
  collapseAll_shape (fun x hx => (hflat x (hsub _ hx)).1) (fun x hx => (hflat x (hsub _ hx)).2)
    (hred _)

theorem canonicalizeAny_shape (hsub : ∀ l, reduce l ⊆ l) (hred : ∀ l, Reduced (reduce l))
    {cs : List Condition} (h : ∀ c ∈ cs, CanonicalWith Values Reduced c) :
    CanonicalWith Values Reduced (canonicalizeAny reduce cs) := by
  rw [canonicalizeAny]
  split
  · have hnil : reduce [] = [] := List.eq_nil_of_subset_nil (hsub [])
    exact .all (by simp) (by simp) (hnil ▸ hred []) (by simp)
  · rename_i l hl
    have hflat := flattenAny_shape h hl
    exact collapseAny_shape (fun x hx => (hflat x (hsub _ hx)).1)
      (fun x hx => (hflat x (hsub _ hx)).2) (hred _)

/-- **The result of canonicalization has the canonical shape.** -/
theorem canonicalizedWith_shape (hvalues : ∀ vs, Values (sortDedup (Value.text F) (· == ·) vs))
    (hsub : ∀ l, reduce l ⊆ l) (hred : ∀ l, Reduced (reduce l)) (c : Condition) :
    CanonicalWith Values Reduced (canonicalizedWith F reduce c) := by
  induction c with
  | all cs ih => exact canonicalizeAll_shape hsub hred (forall_canonicalizedEach ih)
  | any cs ih => exact canonicalizeAny_shape hsub hred (forall_canonicalizedEach ih)
  | not c ih => exact canonicalizeNot_shape ih
  | eq k v => exact .eq k v
  | isIn k vs => exact canonicalizeIn_shape k (hvalues vs)
  | defined k => exact .defined k

theorem flattenAll_eq_self {cs : List Condition} (h : ∀ c ∈ cs, ∀ ds, c ≠ .all ds) :
    flattenAll cs = cs := by
  induction cs with
  | nil => rfl
  | cons c cs ih =>
    obtain ⟨hc, hcs⟩ := List.forall_mem_cons.1 h
    rw [flattenAll, ih hcs]
    exact hc

theorem flattenAny_eq_self {cs : List Condition}
    (h : ∀ c ∈ cs, c ≠ .all [] ∧ ∀ ds, c ≠ .any ds) : flattenAny cs = some cs := by
  induction cs with
  | nil => rfl
  | cons c cs ih =>
    obtain ⟨⟨hc, hany⟩, hcs⟩ := List.forall_mem_cons.1 h
    rw [flattenAny, ih hcs]
    · rfl
    · exact hc
    · exact hany

theorem collapseAll_eq_self {cs : List Condition} (h : cs.length ≠ 1) :
    collapseAll cs = .all cs := by
  unfold collapseAll
  split
  · exact absurd rfl h
  · rfl

theorem collapseAny_eq_self {cs : List Condition} (h : cs.length ≠ 1) :
    collapseAny cs = .any cs := by
  unfold collapseAny
  split
  · exact absurd rfl h
  · rfl

theorem canonicalizeAll_eq_self {cs : List Condition} (flat : ∀ c ∈ cs, ∀ ds, c ≠ .all ds)
    (hself : reduce cs = cs) (length : cs.length ≠ 1) : canonicalizeAll reduce cs = .all cs := by
  rw [canonicalizeAll, flattenAll_eq_self flat, hself, collapseAll_eq_self length]

theorem canonicalizeAny_eq_self {cs : List Condition}
    (flat : ∀ c ∈ cs, c ≠ .all [] ∧ ∀ ds, c ≠ .any ds) (hself : reduce cs = cs)
    (length : cs.length ≠ 1) : canonicalizeAny reduce cs = .any cs := by
  rw [canonicalizeAny, flattenAny_eq_self flat]
  simp only [hself, collapseAny_eq_self length]

theorem canonicalizeNot_eq_self {c : Condition} (single : ∀ d, c ≠ .not d) :
    canonicalizeNot c = .not c := by
  rw [canonicalizeNot]
  exact single

/-- A condition of canonical shape is left alone. -/
theorem canonicalizedWith_eq_self
    (hvalues : ∀ vs, Values vs → sortDedup (Value.text F) (· == ·) vs = vs)
    (hself : ∀ l, Reduced l → reduce l = l) {c : Condition} (h : CanonicalWith Values Reduced c) :
    canonicalizedWith F reduce c = c := by
  have hmap {cs : List Condition} (ih : ∀ c ∈ cs, canonicalizedWith F reduce c = c) :
      canonicalizedEach F reduce cs = cs := by
    rw [canonicalizedEach_eq, List.map_congr_left ih, List.map_id']
  induction h with
  | all _ flat reduced length ih =>
    rw [canonicalizedWith, hmap ih, canonicalizeAll_eq_self flat (hself _ reduced) length]
  | any _ flat reduced length ih =>
    rw [canonicalizedWith, hmap ih, canonicalizeAny_eq_self flat (hself _ reduced) length]
  | not _ single ih => rw [canonicalizedWith, ih, canonicalizeNot_eq_self single]
  | eq k v => rfl
  | isIn values length =>
    rw [canonicalizedWith, canonicalizeIn, hvalues _ values]
    split
    · exact absurd rfl length
    · rfl
  | defined k => rfl

end Shape

/-! ### The canonical form of the code -/

section Canonicalized

variable (F : FloatText)

theorem sortAndDedup_subset (l : List Condition) : sortAndDedup F l ⊆ l :=
  fun _ => mem_of_mem_sortDedup

/-- **Canonicalization is idempotent.** -/
theorem canonicalized_idem (c : Condition) :
    canonicalized F (canonicalized F c) = canonicalized F c := by
  have hshape : CanonicalWith
      (fun vs => (vs.Pairwise fun v w => v.text F ≤ w.text F) ∧ Distinct (· == ·) vs)
      (fun l => (l.Pairwise fun a b => sortKey F a ≤ sortKey F b) ∧ Distinct beq l)
      (canonicalized F c) :=
    canonicalizedWith_shape (fun vs => ⟨sortDedup_sorted vs, sortDedup_distinct vs⟩)
      (sortAndDedup_subset F) (fun l => ⟨sortDedup_sorted l, sortDedup_distinct l⟩) c
  exact canonicalizedWith_eq_self (fun _ h => sortDedup_eq_self h.1 h.2)
    (fun _ h => sortDedup_eq_self h.1 h.2) hshape

variable {F}

/-! Canonicalization makes no new values. -/

section Over

variable {P : Value → Prop}

theorem Over.flattenAll {cs : List Condition} (h : ∀ c ∈ cs, Over P c) :
    ∀ x ∈ flattenAll cs, Over P x := by
  intro x hx
  obtain ⟨c, hc, ⟨ds, rfl, hxds⟩ | ⟨rfl, -⟩⟩ := mem_flattenAll.1 hx
  · cases h _ hc with
    | all hds => exact hds x hxds
  · exact h x hc

theorem Over.flattenAny {cs l : List Condition} (h : ∀ c ∈ cs, Over P c)
    (hl : flattenAny cs = some l) : ∀ x ∈ l, Over P x := by
  intro x hx
  obtain ⟨c, hc, ⟨ds, rfl, hxds⟩ | ⟨rfl, -⟩⟩ := (mem_flattenAny hl).1 hx
  · cases h _ hc with
    | any hds => exact hds x hxds
  · exact h x hc

theorem Over.collapseAll {cs : List Condition} (h : ∀ c ∈ cs, Over P c) :
    Over P (collapseAll cs) := by
  unfold Condition.collapseAll
  split
  · exact h _ List.mem_cons_self
  · exact .all h

theorem Over.collapseAny {cs : List Condition} (h : ∀ c ∈ cs, Over P c) :
    Over P (collapseAny cs) := by
  unfold Condition.collapseAny
  split
  · exact h _ List.mem_cons_self
  · exact .any h

theorem Over.canonicalizeNot {c : Condition} (h : Over P c) : Over P (canonicalizeNot c) := by
  unfold Condition.canonicalizeNot
  split
  · cases h with
    | not hd => exact hd
  · exact .not h

theorem Over.canonicalizeIn {k : String} {vs : List Value} (h : ∀ v ∈ vs, P v) :
    Over P (canonicalizeIn F k vs) := by
  unfold Condition.canonicalizeIn
  split
  · rename_i v hv
    exact .eq (h v (mem_of_mem_sortDedup (hv ▸ List.mem_cons_self)))
  · exact .isIn fun v hv => h v (mem_of_mem_sortDedup hv)

theorem Over.canonicalizedWith {reduce : List Condition → List Condition}
    (hsub : ∀ l, reduce l ⊆ l) {c : Condition} (h : Over P c) :
    Over P (canonicalizedWith F reduce c) := by
  induction h with
  | all _ ih =>
    exact .collapseAll fun x hx => Over.flattenAll (forall_canonicalizedEach ih) x (hsub _ hx)
  | any _ ih =>
    rw [Condition.canonicalizedWith, canonicalizeAny]
    split
    · exact .all (by simp)
    · rename_i l hl
      exact .collapseAny fun x hx =>
        Over.flattenAny (forall_canonicalizedEach ih) hl x (hsub _ hx)
  | not _ ih => exact ih.canonicalizeNot
  | eq h => exact .eq h
  | isIn h => exact .canonicalizeIn h
  | defined k => exact .defined k

end Over

theorem Primitive.flattenAll {cs : List Condition} (h : ∀ c ∈ cs, Primitive c) :
    ∀ x ∈ flattenAll cs, Primitive x := fun x hx =>
  primitive_iff_over.2 (Over.flattenAll (fun c hc => primitive_iff_over.1 (h c hc)) x hx)

theorem Primitive.flattenAny {cs l : List Condition} (h : ∀ c ∈ cs, Primitive c)
    (hl : flattenAny cs = some l) : ∀ x ∈ l, Primitive x := fun x hx =>
  primitive_iff_over.2 (Over.flattenAny (fun c hc => primitive_iff_over.1 (h c hc)) hl x hx)

theorem Primitive.canonicalizedWith {reduce : List Condition → List Condition}
    (hsub : ∀ l, reduce l ⊆ l) {c : Condition} (h : Primitive c) :
    Primitive (canonicalizedWith F reduce c) :=
  primitive_iff_over.2 ((primitive_iff_over.1 h).canonicalizedWith hsub)

variable (env : Assignment)

/-- Every operand that is dropped has the meaning of one that stays. -/
theorem exists_mem_sortAndDedup {l : List Condition} (hl : ∀ c ∈ l, Primitive c) {c : Condition}
    (hc : c ∈ l) : ∃ d ∈ sortAndDedup F l, holds env c = holds env d := by
  obtain ⟨d, hd, hcd⟩ : ∃ d ∈ sortAndDedup F l, c.beq d = true :=
    sortDedup_covers hc (hl c hc).beq_refl
  exact ⟨d, hd, holds_of_beq env c d (hl c hc) hcd⟩

theorem all_sortAndDedup {l : List Condition} (hl : ∀ c ∈ l, Primitive c) :
    (sortAndDedup F l).all (holds env) = l.all (holds env) := by
  rw [Bool.eq_iff_iff, List.all_eq_true, List.all_eq_true]
  refine ⟨fun h c hc => ?_, fun h c hc => h c (sortAndDedup_subset F l hc)⟩
  obtain ⟨d, hd, hcd⟩ := exists_mem_sortAndDedup env hl hc
  rw [hcd, h d hd]

theorem any_sortAndDedup {l : List Condition} (hl : ∀ c ∈ l, Primitive c) :
    (sortAndDedup F l).any (holds env) = l.any (holds env) := by
  rw [Bool.eq_iff_iff, List.any_eq_true, List.any_eq_true]
  refine ⟨fun ⟨c, hc, h⟩ => ⟨c, sortAndDedup_subset F l hc, h⟩, fun ⟨c, hc, h⟩ => ?_⟩
  obtain ⟨d, hd, hcd⟩ := exists_mem_sortAndDedup env hl hc
  exact ⟨d, hd, hcd ▸ h⟩

theorem holds_canonicalizeIn {k : String} {vs : List Value}
    (h : ∀ v ∈ vs, isConditionPrimitive v = true) :
    holds env (canonicalizeIn F k vs) = holds env (.isIn k vs) := by
  have hany (w : Value) :
      (sortDedup (Value.text F) (· == ·) vs).any (w == ·) = vs.any (w == ·) := by
    rw [Bool.eq_iff_iff, List.any_eq_true, List.any_eq_true]
    refine ⟨fun ⟨v, hv, h⟩ => ⟨v, mem_of_mem_sortDedup hv, h⟩, fun ⟨v, hv, hw⟩ => ?_⟩
    obtain ⟨u, hu, hvu⟩ : ∃ u ∈ sortDedup (Value.text F) (· == ·) vs, (v == u) = true :=
      sortDedup_covers hv (beq_refl_of_primitive (h v hv))
    exact ⟨u, hu, by rw [← beq_congr_of_primitive (h v hv) hvu, hw]⟩
  unfold canonicalizeIn
  split
  · rename_i v hv
    simp only [holds]
    congr 1
    funext w
    rw [← hany w, hv]
    simp
  · simp only [holds, hany]

/-- **The canonical form has the meaning of the condition**, under every assignment. -/
theorem holds_canonicalized {c : Condition} (h : Primitive c) :
    holds env (canonicalized F c) = holds env c := by
  have hprim (l : List Condition) (hl : ∀ c ∈ l, Primitive c) :
      ∀ x ∈ canonicalizedEach F (sortAndDedup F) l, Primitive x :=
    forall_canonicalizedEach fun c hc => (hl c hc).canonicalizedWith (sortAndDedup_subset F)
  induction h with
  | @all cs h ih =>
    calc holds env (canonicalized F (.all cs))
        = (sortAndDedup F (flattenAll (canonicalizedEach F (sortAndDedup F) cs))).all (holds env) :=
          holds_collapseAll env _
      _ = (canonicalizedEach F (sortAndDedup F) cs).all (holds env) := by
          rw [all_sortAndDedup env (Primitive.flattenAll (hprim cs h)), all_flattenAll]
      _ = cs.all (holds env) := by
          rw [canonicalizedEach_eq, List.all_map, Bool.eq_iff_iff, List.all_eq_true,
            List.all_eq_true]
          exact forall₂_congr fun c hc => by rw [← ih c hc]; rfl
      _ = holds env (.all cs) := (holds_all env cs).symm
  | @any cs h ih =>
    have hany : (canonicalizedEach F (sortAndDedup F) cs).any (holds env) =
        holds env (.any cs) := by
      rw [canonicalizedEach_eq, List.any_map, holds_any, Bool.eq_iff_iff, List.any_eq_true,
        List.any_eq_true]
      exact exists_congr fun c => and_congr_right fun hc => by rw [← ih c hc]; rfl
    rw [← hany, any_flattenAny, canonicalized, canonicalizedWith, canonicalizeAny]
    cases hl : flattenAny (canonicalizedEach F (sortAndDedup F) cs) with
    | none => rfl
    | some l =>
      simp only [holds_collapseAny, any_sortAndDedup env (Primitive.flattenAny (hprim cs h) hl),
        Option.map_some, Option.getD_some]
  | not _ ih =>
    rw [canonicalized, canonicalizedWith, holds_canonicalizeNot, holds_not]
    exact congrArg _ ih
  | eq h => rfl
  | isIn h => exact holds_canonicalizeIn env h
  | defined k => rfl

end Canonicalized

end Condition

end Protocol
