/-!
What a run of an action that keeps a state and may halt comes to. A claim about a run is taken
apart along the action: a claim about two actions in a row is one about the first, with a claim
about the second as what it is to bring about.
-/

namespace StreamMatch

variable {ε σ α β : Type}

/-- The run of `action` from `before` returns with `returned`, or halts with `halted`. -/
def Leads (action : EStateM ε σ α) (before : σ) (returned : α → σ → Prop)
    (halted : ε → σ → Prop) : Prop :=
  match action before with
  | .ok value after => returned value after
  | .error problem after => halted problem after

/-- What follows on `get` is run at the state that there is. -/
theorem get_bind_apply (next : σ → EStateM ε σ β) (before : σ) :
    (get >>= next) before = next before before :=
  rfl

section Equations

variable {before : σ} {halted : ε → σ → Prop}

@[simp]
theorem leads_pure {value : α} {returned : α → σ → Prop} :
    Leads (pure value : EStateM ε σ α) before returned halted ↔ returned value before :=
  Iff.rfl

@[simp]
theorem leads_get {returned : σ → σ → Prop} :
    Leads (get : EStateM ε σ σ) before returned halted ↔ returned before before :=
  Iff.rfl

@[simp]
theorem leads_modify {change : σ → σ} {returned : Unit → σ → Prop} :
    Leads (modify change : EStateM ε σ Unit) before returned halted ↔
      returned () (change before) :=
  Iff.rfl

@[simp]
theorem leads_bind {action : EStateM ε σ α} {next : α → EStateM ε σ β}
    {returned : β → σ → Prop} :
    Leads (action >>= next) before returned halted ↔
      Leads action before (fun value after => Leads (next value) after returned halted) halted := by
  simp only [Leads, Bind.bind, EStateM.bind]
  cases action before <;> rfl

@[simp]
theorem leads_map {action : EStateM ε σ α} {change : α → β} {returned : β → σ → Prop} :
    Leads (change <$> action) before returned halted ↔
      Leads action before (fun value after => returned (change value) after) halted := by
  simp only [Leads, Functor.map, EStateM.map]
  cases action before <;> rfl

end Equations

namespace Leads

variable {action : EStateM ε σ α} {next : α → EStateM ε σ β} {before after : σ}
  {returned returned' : α → σ → Prop} {halted halted' : ε → σ → Prop}

theorem of_ok {value : α} (hLeads : Leads action before returned halted)
    (hRun : action before = .ok value after) : returned value after := by
  rw [Leads, hRun] at hLeads
  exact hLeads

theorem of_error {problem : ε} (hLeads : Leads action before returned halted)
    (hRun : action before = .error problem after) : halted problem after := by
  rw [Leads, hRun] at hLeads
  exact hLeads

theorem returns {value : α} (hRun : action before = .ok value after)
    (hReturned : returned value after) : Leads action before returned halted := by
  rw [Leads, hRun]
  exact hReturned

theorem halts {problem : ε} (hRun : action before = .error problem after)
    (hHalted : halted problem after) : Leads action before returned halted := by
  rw [Leads, hRun]
  exact hHalted

/-- Only what the action does at this state matters. -/
theorem congr {action' : EStateM ε σ α} (hLeads : Leads action before returned halted)
    (hSame : action' before = action before) : Leads action' before returned halted := by
  rw [Leads, hSame]
  exact hLeads

/-- It is enough to look at both ways in which a run can end. -/
theorem intro (hOk : ∀ value after, action before = .ok value after → returned value after)
    (hError : ∀ problem after, action before = .error problem after → halted problem after) :
    Leads action before returned halted := by
  unfold Leads
  split
  · next value after hRun => exact hOk value after hRun
  · next problem after hRun => exact hError problem after hRun

theorem mono (hLeads : Leads action before returned halted)
    (hReturned : ∀ value after, returned value after → returned' value after)
    (hHalted : ∀ problem after, halted problem after → halted' problem after) :
    Leads action before returned' halted' :=
  intro (fun value after hRun => hReturned value after (hLeads.of_ok hRun))
    (fun problem after hRun => hHalted problem after (hLeads.of_error hRun))

theorem and (hFirst : Leads action before returned halted)
    (hSecond : Leads action before returned' halted') :
    Leads action before (fun value after => returned value after ∧ returned' value after)
      (fun problem after => halted problem after ∧ halted' problem after) :=
  intro (fun _ _ hRun => ⟨hFirst.of_ok hRun, hSecond.of_ok hRun⟩)
    (fun _ _ hRun => ⟨hFirst.of_error hRun, hSecond.of_error hRun⟩)

/-- A run ends in one of both ways. -/
theorem ends (hLeads : Leads action before returned halted) :
    (∃ value after, returned value after) ∨ ∃ problem after, halted problem after := by
  cases hRun : action before with
  | ok value after => exact .inl ⟨value, after, hLeads.of_ok hRun⟩
  | error problem after => exact .inr ⟨problem, after, hLeads.of_error hRun⟩

/-- What a run leads to is what it comes to. -/
theorem self (action : EStateM ε σ α) (before : σ) :
    Leads action before (fun value after => action before = .ok value after)
      (fun problem after => action before = .error problem after) :=
  intro (fun _ _ hRun => hRun) (fun _ _ hRun => hRun)

/-- Two actions in a row: what the first brings about has to lead on to what is claimed. -/
theorem bind {returned' : β → σ → Prop} (hFirst : Leads action before returned halted)
    (hHalted : ∀ problem after, halted problem after → halted' problem after)
    (hNext : ∀ value after, returned value after → Leads (next value) after returned' halted') :
    Leads (action >>= next) before returned' halted' :=
  leads_bind.2 (hFirst.mono hNext hHalted)

end Leads

end StreamMatch
