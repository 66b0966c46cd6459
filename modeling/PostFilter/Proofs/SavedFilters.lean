import Mathlib
import PostFilter.Proofs.Parsing
import PostFilter.Saved.Filter

/-!
# Changing saved filters

A change checks all that it is given before it writes any of it, so a change that is refused leaves
the filter as it was. A field that has once been checked therefore stays valid under all later
changes, and a filter that was checked when it was made can always be used.
-/

namespace PostFilter

/-- A change of a saved filter. What is not given stays. -/
structure Change where
  name : Option String
  expression : Option String
  deriving DecidableEq, Repr

namespace Change

open SavedFilter in
/-- The change as it is carried out on a filter, check by check and field by field. An error would
leave behind what has been written before it. -/
def write (c : Change) : ExceptT FilterError (StateM SavedFilter) Unit := do
  ofExcept (checkGiven checkName c.name)
  ofExcept (checkGiven checkExpression c.expression)
  if let some n := c.name then
    modify fun f => { f with name := n }
  if let some e := c.expression then
    modify fun f => { f with expression := e }

/-- Why a change is refused: for its name if that is bad, and otherwise for its expression. -/
inductive Refused (c : Change) : FilterError → Prop where
  | name {n : String} (given : c.name = some n) (bad : isName n = false) :
      Refused c (.invalidName n)
  | expression {s : String} {e : SyntaxError} (good : ∀ n, c.name = some n → isName n = true)
      (given : c.expression = some s) (bad : parse s = .error e) : Refused c (.malformed e)

end Change

namespace SavedFilter

variable {f : SavedFilter} {c : Change} {err : FilterError}

/-- How a change of the filter ends, and the filter that it leaves behind. -/
def amend (f : SavedFilter) (c : Change) : Except FilterError Unit × SavedFilter :=
  c.write.run.run f

/-- The filter after some changes, successful or not, the first of which comes first. -/
def afterAll (f : SavedFilter) (cs : List Change) : SavedFilter :=
  cs.foldl (fun f c => (f.amend c).2) f

@[simp] theorem afterAll_nil (f : SavedFilter) : f.afterAll [] = f := rfl

@[simp] theorem afterAll_cons (f : SavedFilter) (c : Change) (cs : List Change) :
    f.afterAll (c :: cs) = (f.amend c).2.afterAll cs := rfl

/-! ## One change -/

/-- Writing field by field comes to the same as making a new filter from checked fields. -/
theorem amend_eq_update (f : SavedFilter) (c : Change) : f.amend c =
    match f.update c.name c.expression with
    | .ok f' => (.ok (), f')
    | .error e => (.error e, f) := by
  unfold amend Change.write update
  cases checkGiven checkName c.name with
  | error e => rfl
  | ok _ =>
    cases checkGiven checkExpression c.expression with
    | error e => rfl
    | ok _ => cases c.name <;> cases c.expression <;> rfl

theorem checkGiven_eq_ok_iff {check : String → Except FilterError Unit} {given : Option String}
    {u : Unit} : checkGiven check given = .ok u ↔ ∀ s, given = some s → check s = .ok u := by
  cases given <;> simp [checkGiven]

theorem checkGiven_eq_error_iff {check : String → Except FilterError Unit}
    {given : Option String} :
    checkGiven check given = .error err ↔ ∃ s, given = some s ∧ check s = .error err := by
  cases given <;> simp [checkGiven]

theorem checkName_eq_ok_iff {n : String} {u : Unit} : checkName n = .ok u ↔ isName n = true := by
  unfold checkName
  split <;> simp [*]

theorem checkName_eq_error_iff {n : String} :
    checkName n = .error err ↔ isName n = false ∧ err = .invalidName n := by
  unfold checkName
  split <;> simp [*, eq_comm]

theorem checkExpression_eq_ok_iff {s : String} {u : Unit} :
    checkExpression s = .ok u ↔ ∃ e, parse s = .ok e := by
  unfold checkExpression
  split <;> simp [*]

theorem checkExpression_eq_error_iff {s : String} :
    checkExpression s = .error err ↔ ∃ e, parse s = .error e ∧ err = .malformed e := by
  unfold checkExpression
  split <;> simp [*, eq_comm]

theorem update_eq_error_iff : f.update c.name c.expression = .error err ↔ c.Refused err := by
  simp only [update, Fallible.bind_eq_error, checkGiven_eq_error_iff, checkGiven_eq_ok_iff,
    checkName_eq_error_iff, checkName_eq_ok_iff, checkExpression_eq_error_iff]
  constructor
  · rintro (⟨n, hn, hbad, rfl⟩ | ⟨-, hgood, ⟨s, hs, e, he, rfl⟩ | ⟨-, -, h⟩⟩)
    · exact .name hn hbad
    · exact .expression hgood hs he
    · cases h
  · rintro (⟨hn, hbad⟩ | ⟨hgood, hs, he⟩)
    · exact .inl ⟨_, hn, hbad, rfl⟩
    · exact .inr ⟨(), hgood, .inl ⟨_, hs, _, he, rfl⟩⟩

theorem update_eq_ok_iff {f' : SavedFilter} : f.update c.name c.expression = .ok f' ↔
    (∀ n, c.name = some n → isName n = true) ∧
      (∀ s, c.expression = some s → ∃ e, parse s = .ok e) ∧
      f' = ⟨f.id, f.owner, c.name.getD f.name, c.expression.getD f.expression⟩ := by
  simp only [update, Fallible.bind_eq_ok, checkGiven_eq_ok_iff, checkName_eq_ok_iff,
    checkExpression_eq_ok_iff]
  constructor
  · rintro ⟨-, hname, -, hexpression, h⟩
    cases h
    exact ⟨hname, hexpression, rfl⟩
  · rintro ⟨hname, hexpression, rfl⟩
    exact ⟨(), hname, (), hexpression, rfl⟩

/-- A change is refused and does nothing, or what it is given is good and goes into the filter. -/
theorem amend_cases (f : SavedFilter) (c : Change) :
    (∃ err, c.Refused err ∧ f.update c.name c.expression = .error err ∧
        f.amend c = (.error err, f)) ∨
      (∀ n, c.name = some n → isName n = true) ∧
        (∀ s, c.expression = some s → ∃ e, parse s = .ok e) ∧
        ∃ f', f' = ⟨f.id, f.owner, c.name.getD f.name, c.expression.getD f.expression⟩ ∧
          f.update c.name c.expression = .ok f' ∧ f.amend c = (.ok (), f') := by
  rw [amend_eq_update]
  cases h : f.update c.name c.expression with
  | error err => exact .inl ⟨err, update_eq_error_iff.mp h, rfl, rfl⟩
  | ok f' =>
    obtain ⟨hname, hexpression, heq⟩ := update_eq_ok_iff.mp h
    exact .inr ⟨hname, hexpression, f', heq, rfl, rfl⟩

/-! ## Runs of changes -/

/-- The text is the filter text of some expression, and parses as that one. -/
def Compiles (s : String) : Prop :=
  ∃ e, parse s = .ok e ∧ e.filterText = s

theorem compiles_of_parse {s : String} {e : Expr} (h : parse s = .ok e) : Compiles s :=
  ⟨e, h, (eq_filterText_of_parse h).1.symm⟩

theorem isName_amend (h : isName f.name = true) (c : Change) :
    isName (f.amend c).2.name = true := by
  rcases amend_cases f c with ⟨err, -, -, heq⟩ | ⟨hname, -, _, rfl, -, heq⟩
  · rwa [heq]
  · rw [heq]
    cases hn : c.name with
    | none => simpa using h
    | some n => simpa using hname n hn

theorem compiles_amend (h : Compiles f.expression) (c : Change) :
    Compiles (f.amend c).2.expression := by
  rcases amend_cases f c with ⟨err, -, -, heq⟩ | ⟨-, hexpression, _, rfl, -, heq⟩
  · rwa [heq]
  · rw [heq]
    cases hs : c.expression with
    | none => simpa using h
    | some s =>
      obtain ⟨e, he⟩ := hexpression s hs
      simpa using compiles_of_parse he

/-- What each change preserves holds after all of them. -/
theorem afterAll_induction {P : SavedFilter → Prop} (amend : ∀ f c, P f → P (f.amend c).2)
    (h : P f) (cs : List Change) : P (f.afterAll cs) := by
  induction cs generalizing f with
  | nil => exact h
  | cons c cs ih => exact ih (amend f c h)

theorem isName_afterAll (h : isName f.name = true) (cs : List Change) :
    isName (f.afterAll cs).name = true :=
  afterAll_induction (P := fun f => isName f.name = true) (fun _ c h => isName_amend h c) h cs

theorem compiles_afterAll (h : Compiles f.expression) (cs : List Change) :
    Compiles (f.afterAll cs).expression :=
  afterAll_induction (P := fun f => Compiles f.expression) (fun _ c h => compiles_amend h c) h cs

theorem id_owner_afterAll (f : SavedFilter) (cs : List Change) :
    (f.afterAll cs).id = f.id ∧ (f.afterAll cs).owner = f.owner := by
  refine afterAll_induction (P := fun g => g.id = f.id ∧ g.owner = f.owner) ?_ ⟨rfl, rfl⟩ cs
  intro g c hg
  rcases amend_cases g c with ⟨err, -, -, heq⟩ | ⟨-, -, _, rfl, -, heq⟩
  · rwa [heq]
  · rwa [heq]

/-! ## Filters that can be used -/

/-- The name is one, the text compiles to an expression that it is the text of, and nothing but the
store can make the filter fail. -/
structure Usable (f : SavedFilter) : Prop where
  name : f.name.toList ≠ [] ∧ ∀ c ∈ f.name.toList, isWordChar c = true
  compiles : ∃ e, f.compile = .ok e ∧ e.filterText = f.expression
  resolves : ∀ source err, f.resolve source = .error err → ∃ e, err = .store e

theorem resolve_eq_error (h : Compiles f.expression) {source : Source}
    (herr : f.resolve source = .error err) : ∃ e, err = .store e := by
  obtain ⟨e, he, -⟩ := h
  rw [resolve, resolveFilter, evaluateFilter, he] at herr
  cases hresult : (e.evaluate source).result with
  | ok s => simp [hresult, Except.mapError] at herr
  | error e' => exact ⟨e', by simpa [hresult, Except.mapError, eq_comm] using herr⟩

theorem usable_of_valid (hname : isName f.name = true) (h : Compiles f.expression) : f.Usable :=
  ⟨isName_iff.mp hname, h, fun _ _ => resolve_eq_error h⟩

theorem create_eq_ok {id : Uuid} {owner name expression : String}
    (h : create id owner name expression = .ok f) :
    f = ⟨id, owner, name, expression⟩ ∧ isName name = true ∧ Compiles expression := by
  obtain ⟨_, hname, h⟩ := Fallible.bind_eq_ok.mp h
  obtain ⟨_, hexpression, h⟩ := Fallible.bind_eq_ok.mp h
  obtain ⟨e, he⟩ := checkExpression_eq_ok_iff.mp hexpression
  cases h
  exact ⟨rfl, checkName_eq_ok_iff.mp hname, compiles_of_parse he⟩

/-- A filter that was checked when it was made can be used after any changes, and keeps its
identifier and its owner. Of any filter, checked or not, a change either replaces exactly what it is
given, or it is refused and leaves the filter as it was. A field that has once been changed is valid
from then on. -/
theorem amend_validates (f : SavedFilter) :
    (∀ id owner name expression, create id owner name expression = .ok f → ∀ cs,
      (f.afterAll cs).Usable ∧ (f.afterAll cs).id = id ∧ (f.afterAll cs).owner = owner) ∧
    (∀ cs, (f.afterAll cs).id = f.id ∧ (f.afterAll cs).owner = f.owner) ∧
    ∀ c,
      ((∃ err, c.Refused err ∧ f.update c.name c.expression = .error err ∧
          f.amend c = (.error err, f)) ∨
        (∀ err, ¬ c.Refused err) ∧
          ∃ f', f' = ⟨f.id, f.owner, c.name.getD f.name, c.expression.getD f.expression⟩ ∧
            f.update c.name c.expression = .ok f' ∧ f.amend c = (.ok (), f')) ∧
      ∀ f', f.amend c = (.ok (), f') → ∀ cs,
        (c.name.isSome → isName (f'.afterAll cs).name = true) ∧
        (c.expression.isSome → ∃ e, (f'.afterAll cs).compile = .ok e ∧
          e.filterText = (f'.afterAll cs).expression) := by
  refine ⟨?_, id_owner_afterAll f, fun c => ⟨?_, ?_⟩⟩
  · intro id owner name expression h cs
    obtain ⟨rfl, hname, hexpression⟩ := create_eq_ok h
    have husable := usable_of_valid (isName_afterAll (f := ⟨id, owner, name, expression⟩) hname cs)
      (compiles_afterAll hexpression cs)
    exact ⟨husable, id_owner_afterAll _ cs⟩
  · rcases amend_cases f c with hrefused | ⟨-, -, f', heq, hupdate, hamend⟩
    · exact .inl hrefused
    · refine .inr ⟨fun err hrefused => ?_, f', heq, hupdate, hamend⟩
      rw [update_eq_error_iff.mpr hrefused] at hupdate
      cases hupdate
  · intro f' h cs
    rcases amend_cases f c with ⟨err, -, -, hamend⟩ | ⟨hname, hexpression, g, hg, -, hamend⟩
    · simp [hamend] at h
    · obtain rfl : g = f' := by simpa [hamend] using h
      refine ⟨fun hgiven => isName_afterAll ?_ cs, fun hgiven => compiles_afterAll ?_ cs⟩
      · obtain ⟨n, hn⟩ := Option.isSome_iff_exists.mp hgiven
        simpa [hg, hn] using hname n hn
      · obtain ⟨s, hs⟩ := Option.isSome_iff_exists.mp hgiven
        obtain ⟨e, he⟩ := hexpression s hs
        simpa [hg, hs] using compiles_of_parse he

/-- The name is good and the expression is not, so neither is taken. -/
theorem amend_validates_half_bad :
    let f : SavedFilter := ⟨⟨List.replicate 16 0, rfl⟩, "u1", "dogs", "#dog"⟩
    let c : Change := ⟨some "cats", some "#cat)"⟩
    f.amend c = (.error (.malformed (.trailingTokens 2)), f) ∧
      (f.afterAll [c, ⟨none, some "!(#dog)"⟩, ⟨some "not dogs", none⟩]).Usable := by
  intro f c
  have hcreate : create f.id "u1" "dogs" "#dog" = .ok f := by cbv
  have hparse : parse "#cat)" = .error (.trailingTokens 2) := by cbv
  obtain ⟨hmade, -, hchanged⟩ := amend_validates f
  refine ⟨?_, (hmade _ _ _ _ hcreate _).1⟩
  obtain ⟨hone, -⟩ := hchanged c
  have hrefused : c.Refused (.malformed (.trailingTokens 2)) :=
    .expression (by decide) rfl hparse
  rcases hone with ⟨err, -, hupdate, hamend⟩ | ⟨hnot, -⟩
  · have heq := (update_eq_error_iff.mpr hrefused).symm.trans hupdate
    rwa [Except.error.inj heq]
  · exact absurd hrefused (hnot _)

end SavedFilter

end PostFilter
