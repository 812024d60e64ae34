import NovaHypervisor.PoolCalls

/-!
A processor's calls of `Allocate` and `Free` as a party of the pool sees them. With the
processor as one caller more, each call is a run of that caller's lock-protected
operations among those that the other parties take in between.
-/
namespace NovaHypervisor

open General

/-- Who takes the action. The two workers are no callers. -/
def PoolAction.caller {Caller β : Type*} : PoolAction Caller β → Option Caller
  | .allocate c _ => some c
  | .free c _ => some c
  | .advance c => some c
  | .write c _ _ => some c
  | .processAllocation _ => none
  | .processFree => none

namespace PoolState

variable {Caller β : Type*} [DecidableEq Caller] [Zero β]

omit [Zero β] in
@[simp] theorem callers_setCaller_self (s : PoolState Caller β) (c : Caller)
    (state : CallerState) : (s.setCaller c state).callers c = state :=
  Function.update_self _ _ _

omit [Zero β] in
theorem callers_setCaller_of_ne (s : PoolState Caller β) {c d : Caller} (h : d ≠ c)
    (state : CallerState) : (s.setCaller c state).callers d = s.callers d :=
  Function.update_of_ne h _ _

omit [Zero β] in
@[simp] theorem setCaller_setCaller (s : PoolState Caller β) (c : Caller)
    (state state' : CallerState) :
    (s.setCaller c state).setCaller c state' = s.setCaller c state' := by
  simp only [setCaller, Function.update_idem]

omit [Zero β] in
theorem setCaller_comm (s : PoolState Caller β) {c d : Caller} (h : d ≠ c)
    (state state' : CallerState) :
    (s.setCaller c state).setCaller d state' = (s.setCaller d state').setCaller c state := by
  simp only [setCaller, Function.update_comm h]

omit [Zero β] in
theorem advance_setCaller (s : PoolState Caller β) {c d : Caller} (h : d ≠ c)
    (state : CallerState) (call : Call) :
    (s.setCaller c state).advance d call = (s.advance d call).setCaller c state := by
  have hheld : ((s.setCaller c state).callers d).held = (s.callers d).held := by
    rw [callers_setCaller_of_ne s h]
  have hmanager : (s.setCaller c state).manager = s.manager := rfl
  cases call with
  | allocate type stage =>
    simp only [advance, hheld, hmanager]
    rcases PoolManager.allocateStep type stage s.manager with ⟨stage' | _ | address, manager⟩
    · exact setCaller_comm { s with manager := manager } h _ _
    · exact setCaller_comm { s with manager := manager } h _ _
    · exact setCaller_comm { s with manager := manager } h _ _
  | free allocation stage =>
    simp only [advance, hheld, hmanager]
    rcases PoolManager.freeStep allocation stage s.manager with ⟨stage' | queued, manager⟩
    · exact setCaller_comm { s with manager := manager } h _ _
    · exact setCaller_comm { s with manager := manager } h _ _

def withCallers (callers : Caller → CallerState) (s : PoolState Caller β) :
    PoolState Caller β :=
  { s with callers := callers }

omit [DecidableEq Caller] in
theorem processAllocation_withCallers (os : Allocator) (s : PoolState Caller β)
    (callers : Caller → CallerState) (answer : Option Pvoid) :
    (s.withCallers callers).processAllocation os answer =
      (s.processAllocation os answer).map (withCallers callers) := by
  have hmanager : (s.withCallers callers).manager = s.manager := rfl
  have hworker : (s.withCallers callers).allocationWorker = s.allocationWorker := rfl
  unfold processAllocation
  rw [hworker, hmanager]
  rcases s.allocationWorker with _ | type
  · simp only
    split <;> rfl
  · simp only
    split <;> rfl

omit [DecidableEq Caller] in
theorem processFree_withCallers (s : PoolState Caller β) (callers : Caller → CallerState) :
    (s.withCallers callers).processFree = s.processFree.withCallers callers := by
  have hmanager : (s.withCallers callers).manager = s.manager := rfl
  have hworker : (s.withCallers callers).freeWorker = s.freeWorker := rfl
  unfold processFree
  rw [hworker, hmanager]
  rcases s.freeWorker with _ | allocation
  · simp only
    split <;> rfl
  · simp only
    split <;> rfl

/-- The two workers take no notice of the callers. -/
theorem step_withCallers {os : Allocator} {s s' : PoolState Caller β}
    {action : PoolAction Caller β} (hworker : action.caller = none)
    (hstep : step os s action = some s') (callers : Caller → CallerState) :
    step os (s.withCallers callers) action = some (s'.withCallers callers) := by
  cases action with
  | processAllocation answer =>
    simp only [step] at hstep ⊢
    rw [processAllocation_withCallers, hstep, Option.map_some]
  | processFree =>
    obtain rfl := Option.some.inj hstep
    exact congrArg some (processFree_withCallers s callers)
  | _ => simp [PoolAction.caller] at hworker

theorem step_setCaller_of_worker {os : Allocator} {s s' : PoolState Caller β}
    {action : PoolAction Caller β} (hworker : action.caller = none)
    (hstep : step os s action = some s') (c : Caller) (state : CallerState) :
    step os (s.setCaller c state) action = some (s'.setCaller c state) := by
  have hsame := step_withCallers hworker hstep s.callers
  have hcallers : s' = s'.withCallers s.callers := Option.some.inj (hstep.symm.trans hsame)
  rw [hcallers]
  exact step_withCallers hworker hstep (Function.update s.callers c state)

/-- What one party does depends on no other caller's state, and changes none. -/
theorem step_setCaller {os : Allocator} {s s' : PoolState Caller β} {c : Caller}
    {action : PoolAction Caller β} (hother : action.caller ≠ some c)
    (hstep : step os s action = some s') (state : CallerState) :
    step os (s.setCaller c state) action = some (s'.setCaller c state) := by
  have hne : ∀ d, action.caller = some d → d ≠ c := by
    intro d hd hdc
    exact hother (hdc ▸ hd)
  cases action with
  | allocate d type =>
    have hd := hne d rfl
    simp only [step, callers_setCaller_of_ne s hd] at hstep ⊢
    split at hstep
    · obtain rfl := Option.some.inj hstep
      exact congrArg some (setCaller_comm s hd _ _)
    · simp at hstep
  | free d buffer =>
    obtain ⟨type, address⟩ := buffer
    have hd := hne d rfl
    simp only [step, callers_setCaller_of_ne s hd] at hstep ⊢
    split at hstep
    · split at hstep
      · rename_i hheld
        rw [if_pos hheld]
        split at hstep
        · rename_i hnull
          obtain rfl := Option.some.inj hstep
          rw [if_pos hnull]
        · rename_i hnull
          obtain rfl := Option.some.inj hstep
          rw [if_neg hnull]
          exact congrArg some (setCaller_comm s hd _ _)
      · simp at hstep
    · simp at hstep
  | advance d =>
    have hd := hne d rfl
    obtain ⟨call, hcall, rfl⟩ := Option.map_eq_some_iff.mp hstep
    simp only [step, callers_setCaller_of_ne s hd, hcall, Option.map_some]
    exact congrArg some (advance_setCaller s hd state call)
  | write d buffer content =>
    have hd := hne d rfl
    simp only [step, callers_setCaller_of_ne s hd] at hstep ⊢
    split at hstep
    · rename_i hheld
      obtain rfl := Option.some.inj hstep
      rw [if_pos hheld]
      rfl
    · simp at hstep
  | processAllocation answer => exact step_setCaller_of_worker rfl hstep c state
  | processFree => exact step_setCaller_of_worker rfl hstep c state

omit [Zero β] in
/-- One operation of `Allocate`: the call goes on, ends without a buffer, or with one. -/
theorem advance_allocate {s : PoolState Caller β} {type : AllocationType}
    {stage : PoolManager.AllocateStage} {manager : PoolManager} (c : Caller) (held : List Buffer)
    {next : PoolManager.AllocateStage ⊕ Option Pvoid}
    (hstep : PoolManager.allocateStep type stage s.manager = (next, manager)) :
    (s.setCaller c ⟨some (.allocate type stage), held⟩).advance c (.allocate type stage) =
      ({ s with manager := manager } : PoolState Caller β).setCaller c (match next with
        | .inl stage' => ⟨some (.allocate type stage'), held⟩
        | .inr result => ⟨none, (result.map fun a => (type, a)).toList ++ held⟩) := by
  have hmanager : (s.setCaller c ⟨some (.allocate type stage), held⟩).manager = s.manager := rfl
  simp only [advance, callers_setCaller_self, hmanager, hstep]
  rcases next with stage' | _ | address
  · exact setCaller_setCaller { s with manager := manager } c _ _
  · exact setCaller_setCaller { s with manager := manager } c _ _
  · exact setCaller_setCaller { s with manager := manager } c _ _

omit [Zero β] in
theorem advance_free {s : PoolState Caller β} {allocation : PoolAllocation}
    {stage : PoolManager.FreeStage} {manager : PoolManager} (c : Caller) (held : List Buffer)
    {next : PoolManager.FreeStage ⊕ Bool}
    (hstep : PoolManager.freeStep allocation stage s.manager = (next, manager)) :
    (s.setCaller c ⟨some (.free allocation stage), held⟩).advance c (.free allocation stage) =
      ({ s with manager := manager } : PoolState Caller β).setCaller c (match next with
        | .inl stage' => ⟨some (.free allocation stage'), held⟩
        | .inr _ => ⟨none, held⟩) := by
  have hmanager : (s.setCaller c ⟨some (.free allocation stage), held⟩).manager = s.manager := rfl
  simp only [advance, callers_setCaller_self, hmanager, hstep]
  rcases next with stage' | queued
  · exact setCaller_setCaller { s with manager := manager } c _ _
  · exact setCaller_setCaller { s with manager := manager } c _ _

/-- The caller's own action, or one of those that the other parties were to take. -/
def OwnOr (c : Caller) (offered : List (PoolAction Caller β)) (action : PoolAction Caller β) :
    Prop := action.caller = some c ∨ action ∈ offered

def Conducts (os : Allocator) (c : Caller) (offered : List (PoolAction Caller β))
    (s s' : PoolState Caller β) : Prop :=
  ∃ taken, GuardedRun (step os) (fun _ action => OwnOr c offered action) s taken s'

namespace Conducts

variable {os : Allocator} {c : Caller} {offered : List (PoolAction Caller β)}
  {s s' s'' : PoolState Caller β}

theorem refl (s : PoolState Caller β) : Conducts os c offered s s := ⟨[], .nil s⟩

theorem trans (h : Conducts os c offered s s') (h' : Conducts os c offered s' s'') :
    Conducts os c offered s s'' := by
  obtain ⟨taken, hrun⟩ := h
  obtain ⟨taken', hrun'⟩ := h'
  exact ⟨taken ++ taken', hrun.append hrun'⟩

theorem own (action : PoolAction Caller β) (hown : action.caller = some c)
    (hstep : step os s action = some s') : Conducts os c offered s s' :=
  ⟨[action], .cons (Or.inl hown) hstep (.nil s')⟩

theorem other {action : PoolAction Caller β} (hoffered : action ∈ offered)
    (hother : action.caller ≠ some c) (hstep : step os s action = some s')
    (state : CallerState) :
    Conducts os c offered (s.setCaller c state) (s'.setCaller c state) :=
  ⟨[action], .cons (Or.inr hoffered) (step_setCaller hother hstep state) (.nil _)⟩

/-- What the others do while the caller is between two operations. -/
theorem others {actions : List (PoolAction Caller β)}
    (hoffered : ∀ action ∈ actions, action ∈ offered ∧ action.caller ≠ some c)
    (s : PoolState Caller β) (state : CallerState) :
    Conducts os c offered (s.setCaller c state)
      ((execute (step os) s actions).setCaller c state) := by
  induction actions generalizing s with
  | nil => exact refl _
  | cons action actions ih =>
    obtain ⟨hmem, hother⟩ := hoffered action List.mem_cons_self
    have hrest := fun t => ih (fun a ha => hoffered a (List.mem_cons_of_mem action ha)) t
    rw [execute_cons]
    cases hstep : step os s action with
    | none => exact hrest s
    | some t => exact (other hmem hother hstep state).trans (hrest t)

end Conducts

end PoolState

namespace SharedPool

variable {Caller β : Type*} [DecidableEq Caller] [Zero β]

/-- What the other parties are going to do is offered, and none of it in the caller's name. -/
def Offers (c : Caller) (offered : List (PoolAction Caller β)) (p : SharedPool Caller β) : Prop :=
  ∀ actions ∈ p.upcoming, ∀ action ∈ actions, action ∈ offered ∧ action.caller ≠ some c

/-- The pool with the caller among its parties. -/
def withCaller (c : Caller) (call : Option Call) (held : List Buffer)
    (p : SharedPool Caller β) : PoolState Caller β :=
  p.state.setCaller c ⟨call, held⟩

variable {os : Allocator} {c : Caller} {offered : List (PoolAction Caller β)}
  {p p' : SharedPool Caller β}

theorem interrupt_conducts (os : Allocator) (h : p.Offers c offered) (call : Option Call)
    (held : List Buffer) :
    PoolState.Conducts os c offered (p.withCaller c call held)
      ((p.interrupt os).withCaller c call held) ∧ (p.interrupt os).Offers c offered := by
  refine ⟨PoolState.Conducts.others ?_ p.state _, fun actions hactions => ?_⟩
  · intro action haction
    obtain ⟨state, upcoming⟩ := p
    cases upcoming with
    | nil => simp at haction
    | cons actions rest => exact h actions List.mem_cons_self action haction
  · exact h actions (List.mem_of_mem_tail hactions)

/-- The loop of `Allocate` is a run of the caller's operations. -/
theorem allocateFrom_conducts {type : AllocationType} {fuel : ℕ}
    {stage : PoolManager.AllocateStage} (hstage : stage.Reached) (hfuel : stage.turns < fuel)
    (h : p.Offers c offered) (held : List Buffer) {result : Option Pvoid}
    (hcall : allocateFrom os type fuel stage p = (result, p')) :
    PoolState.Conducts os c offered (p.withCaller c (some (.allocate type stage)) held)
      (p'.withCaller c none ((result.map fun a => (type, a)).toList ++ held)) ∧
        p'.Offers c offered := by
  induction fuel generalizing stage p with
  | zero => omega
  | succ fuel ih =>
    obtain ⟨hturn, hoffers⟩ := interrupt_conducts os h (some (.allocate type stage)) held
    simp only [allocateFrom] at hcall
    rcases hstep : PoolManager.allocateStep type stage (p.interrupt os).state.manager with
      ⟨stage' | result', manager⟩
    · rw [hstep] at hcall
      obtain ⟨hreached, hlt⟩ := PoolManager.allocateStep_turns hstage (congrArg Prod.fst hstep)
      obtain ⟨hrest, hoffers'⟩ := ih (p := (p.interrupt os).setManager manager) hreached
        (by omega) hoffers hcall
      refine ⟨(hturn.trans (.own (.advance c) rfl ?_)).trans hrest, hoffers'⟩
      simp only [withCaller, PoolState.step, PoolState.callers_setCaller_self, Option.map_some]
      exact congrArg some (PoolState.advance_allocate c held hstep)
    · rw [hstep] at hcall
      obtain ⟨rfl, rfl⟩ := Prod.mk.inj hcall
      refine ⟨hturn.trans (.own (.advance c) rfl ?_), hoffers⟩
      simp only [withCaller, PoolState.step, PoolState.callers_setCaller_self, Option.map_some]
      exact congrArg some (PoolState.advance_allocate c held hstep)

theorem allocate_conducts {type : AllocationType} (h : p.Offers c offered) (held : List Buffer)
    {result : Option Pvoid} (hcall : allocate os type p = (result, p')) :
    PoolState.Conducts os c offered (p.withCaller c none held)
      (p'.withCaller c none ((result.map fun a => (type, a)).toList ++ held)) ∧
        p'.Offers c offered := by
  have hstage : PoolManager.AllocateStage.find.Reached := trivial
  obtain ⟨hloop, hoffers⟩ := allocateFrom_conducts hstage (Nat.lt_succ_self _) h held hcall
  refine ⟨PoolState.Conducts.trans (.own (.allocate c type) rfl ?_) hloop, hoffers⟩
  simp only [withCaller, PoolState.step, PoolState.callers_setCaller_self,
    PoolState.setCaller_setCaller]

/-- The loop of `Free` is a run of the caller's operations. -/
theorem freeFrom_conducts (os : Allocator) (allocation : PoolAllocation) {fuel : ℕ}
    {stage : PoolManager.FreeStage} (hstage : stage.Reached) (hfuel : stage.turns < fuel)
    (h : p.Offers c offered) (held : List Buffer) :
    PoolState.Conducts os c offered (p.withCaller c (some (.free allocation stage)) held)
      ((freeFrom os allocation fuel stage p).withCaller c none held) ∧
        (freeFrom os allocation fuel stage p).Offers c offered := by
  induction fuel generalizing stage p with
  | zero => omega
  | succ fuel ih =>
    obtain ⟨hturn, hoffers⟩ := interrupt_conducts os h (some (.free allocation stage)) held
    simp only [freeFrom]
    rcases hstep : PoolManager.freeStep allocation stage (p.interrupt os).state.manager with
      ⟨stage' | queued, manager⟩
    · obtain ⟨hreached, hlt⟩ := PoolManager.freeStep_turns hstage (congrArg Prod.fst hstep)
      obtain ⟨hrest, hoffers'⟩ := ih (p := (p.interrupt os).setManager manager) hreached
        (by omega) hoffers
      refine ⟨(hturn.trans (.own (.advance c) rfl ?_)).trans hrest, hoffers'⟩
      simp only [withCaller, PoolState.step, PoolState.callers_setCaller_self, Option.map_some]
      exact congrArg some (PoolState.advance_free c held hstep)
    · refine ⟨hturn.trans (.own (.advance c) rfl ?_), hoffers⟩
      simp only [withCaller, PoolState.step, PoolState.callers_setCaller_self, Option.map_some]
      exact congrArg some (PoolState.advance_free c held hstep)

/-- `Free` of a buffer that the caller holds takes it from what it holds. -/
theorem free_conducts (os : Allocator) {type : AllocationType} {address : Pvoid}
    (h : p.Offers c offered) {held : List Buffer} (hheld : (type, address) ∈ held) :
    ∃ held', (∀ b ∈ held, b ≠ (type, address) → b ∈ held') ∧
      PoolState.Conducts os c offered (p.withCaller c none held)
        ((p.free os address type).withCaller c none held') ∧
      (p.free os address type).Offers c offered := by
  unfold free
  split
  · exact ⟨held, fun b hb _ => hb, .refl _, h⟩
  · rename_i hnonnull
    have hstage : PoolManager.FreeStage.insert.Reached := trivial
    obtain ⟨hloop, hoffers⟩ := freeFrom_conducts os ⟨address, false, type⟩ hstage
      (Nat.lt_succ_self _) h (held.erase (type, address))
    refine ⟨held.erase (type, address), fun b hb hne => (List.mem_erase_of_ne hne).mpr hb,
      PoolState.Conducts.trans (.own (.free c (type, address)) rfl ?_) hloop, hoffers⟩
    simp only [withCaller, PoolState.step, PoolState.callers_setCaller_self, if_pos hheld,
      if_neg hnonnull, PoolState.setCaller_setCaller]

theorem write_conducts (os : Allocator) (offered : List (PoolAction Caller β)) {b : Buffer}
    {held : List Buffer} (hheld : b ∈ held) (content : β) (s : PoolState Caller β) :
    PoolState.Conducts os c offered (s.setCaller c ⟨none, held⟩)
      (({ s with memory := Function.update s.memory b.2 content } :
        PoolState Caller β).setCaller c ⟨none, held⟩) := by
  refine .own (.write c b content) rfl ?_
  simp only [PoolState.step, PoolState.callers_setCaller_self, if_pos hheld]
  rfl

end SharedPool

end NovaHypervisor
