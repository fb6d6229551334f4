import FourierSDK.Group.Concurrent
import FourierSDK.Transition.History

/-!
This module contains what the handlers of a group are promised when threads add, clear and dispatch
at once: the member functions take effect one after the other, in the order in which they hold
`handler_lock_`, and a dispatch invokes what has been added since the last clear before it.
-/

namespace Fourier

open Transition Monitor

variable {R T Code Tid : Type} [DecidableEq Tid]

namespace Operation

def handler? : Operation T → Option (GroupFeedbackHandler T)
  | .addFeedbackHandler handler => some handler
  | _ => none

def isClear : Operation T → Bool
  | .clearFeedbackHandlers => true
  | _ => false

end Operation

def addedSinceClear (ops : List (Operation T)) : List (GroupFeedbackHandler T) :=
  (sinceReset Operation.isClear ops).filterMap Operation.handler?

theorem addedSinceClear_snoc (ops : List (Operation T)) (op : Operation T)
    : addedSinceClear (ops ++ [op])
        =
      if op.isClear then [] else addedSinceClear ops ++ op.handler?.toList := by
  unfold addedSinceClear
  rw [sinceReset_snoc]
  cases op with
  | clearFeedbackHandlers => rfl
  | addFeedbackHandler handler => simp [Operation.isClear, Operation.handler?]
  | callAttachedHandlers group_feedback => simp [Operation.isClear, Operation.handler?]

theorem addedSinceClear_clear (ops ops' : List (Operation T))
    : addedSinceClear (ops ++ .clearFeedbackHandlers :: ops') = addedSinceClear ops' := by
  unfold addedSinceClear
  rw [sinceReset_reset _ _ rfl]

theorem length_addedSinceClear_le (ops : List (Operation T))
    : (addedSinceClear ops).length ≤ ops.length := by
  refine (List.length_filterMap_le _ _).trans ?_
  apply (List.rtakeWhile_suffix _ _).length_le

theorem mem_of_addedSinceClear {ops : List (Operation T)} {handler : GroupFeedbackHandler T}
    (h : handler ∈ addedSinceClear ops) : .addFeedbackHandler handler ∈ ops := by
  have ⟨op, hop, hhandler⟩ := List.mem_filterMap.mp h
  cases op with
  | addFeedbackHandler handler' =>
    simp only [Operation.handler?, Option.some.injEq] at hhandler
    rw [← hhandler]
    apply mem_of_sinceReset hop
  | clearFeedbackHandlers => simp [Operation.handler?] at hhandler
  | callAttachedHandlers => simp [Operation.handler?] at hhandler

theorem mem_addedSinceClear (ops : List (Operation T)) {ops' : List (Operation T)}
    {handler : GroupFeedbackHandler T} (h : .clearFeedbackHandlers ∉ ops')
    : handler ∈ addedSinceClear (ops ++ .addFeedbackHandler handler :: ops') := by
  apply List.mem_filterMap.mpr
  refine ⟨.addFeedbackHandler handler, ?_, rfl⟩
  apply mem_sinceReset
  . rfl
  . intro op hop
    cases op with
    | clearFeedbackHandlers => contradiction
    | addFeedbackHandler => rfl
    | callAttachedHandlers => rfl

namespace Group

variable {lib : HandlerLib R} {feedbackLib : FeedbackLib} {user : HandlerProgram T Code}

theorem handlers_of_section {g g' : Group R T} {op : Operation T}
    (h : (object lib feedbackLib user).Section g op g')
    : g'.handlers_ = if op.isClear then [] else g.handlers_ ++ op.handler?.toList := by
  cases op with
  | addFeedbackHandler handler =>
    have ⟨status, hg⟩ := section_add h
    rw [hg]
    rfl
  | clearFeedbackHandlers =>
    rw [section_clear h]
    rfl
  | callAttachedHandlers group_feedback =>
    rw [section_dispatch h]
    simp [Operation.isClear, Operation.handler?]

theorem handlers_of_sections {g g' : Group R T} {ops : List (Operation T)}
    (hempty : g.handlers_ = []) (h : Run (object lib feedbackLib user).Section g ops g')
    : g'.handlers_ = addedSinceClear ops := by
  apply h.invariant (P := fun ops g' => g'.handlers_ = addedSinceClear ops)
  . exact hempty
  . intro ops g₁ op g₂ _ ih hsection
    rw [handlers_of_section hsection, addedSinceClear_snoc, ih]

theorem completed_invocations {g g' : Group R T} {labels : List (Label T)} {pc : Pc T Code}
    {group_feedback : FourierGroupFeedbackPtr}
    (h : (object lib feedbackLib user).Solo
      (enter feedbackLib (.callAttachedHandlers group_feedback), g) labels (pc, g'))
    (hpc : pc = .unlock)
    : invocations labels = g.handlers_.map (·, .ofHandle feedbackLib group_feedback) := by
  have hprogress := (dispatchProgress_of_solo h).right
  rw [hpc] at hprogress
  apply hprogress.right

theorem invoked_mem_handlers {g g₁ g₂ : Group R T} {op : Operation T} {labels : List (Label T)}
    {pc pc' : Pc T Code} {handler : GroupFeedbackHandler T} {fbk : GroupFeedback}
    (hsolo : (object lib feedbackLib user).Solo (enter feedbackLib op, g) labels (pc, g₁))
    (hbody : Body lib user pc g₁ (.invoke handler fbk) pc' g₂) : handler ∈ g.handlers_ := by
  have hpc : ∃ fbk' i, pc = .callHandler fbk' i handler := by
    cases hbody with
    | callEmpty => exact ⟨_, _, rfl⟩
    | callTarget => exact ⟨_, _, rfl⟩
  have ⟨fbk', i, hpc⟩ := hpc
  rw [hpc] at hsolo
  cases op with
  | addFeedbackHandler handler' =>
    have hprogress : AddProgress lib g handler' (.callHandler fbk' i handler : Pc T Code) g₁ := by
      apply addProgress_of_solo hsolo
    exact hprogress.elim
  | clearFeedbackHandlers =>
    have hprogress : ClearProgress lib g (.callHandler fbk' i handler : Pc T Code) g₁ := by
      apply clearProgress_of_solo hsolo
    exact hprogress.elim
  | callAttachedHandlers group_feedback =>
    have ⟨_, hprogress⟩ := dispatchProgress_of_solo hsolo
    apply List.mem_of_getElem? hprogress.right.right

end Group

/--
Every dispatch that has been completed invoked exactly the handlers that had been added since the
last clear when it acquired the lock, in the order of their adds.
-/
def ExactDispatches (feedbackLib : FeedbackLib) (tr : List (Event Tid (Operation T) (Label T)))
    : Prop :=
  ∀ pre t group_feedback inner op post,
    tr = pre ++ .acquire t (.callAttachedHandlers group_feedback) ::
      (inner ++ .release t op :: post) →
    (∀ op', .release t op' ∉ inner) →
    invocations (labelsOf t inner)
      =
    (addedSinceClear (performed pre)).map (·, .ofHandle feedbackLib group_feedback)

/--
A handler that is invoked after `clearFeedbackHandlers` has returned was added after the clear.
-/
def NoStaleCalls (tr : List (Event Tid (Operation T) (Label T))) : Prop :=
  ∀ pre t mid u handler fbk post,
    tr = pre ++ .ret t .clearFeedbackHandlers ::
      (mid ++ .body u (.invoke handler fbk) :: post) →
    ∃ before after,
      pre = before ++ .release t .clearFeedbackHandlers :: after ∧
      (∀ op, .release t op ∉ after) ∧
      .addFeedbackHandler handler ∈ performed (after ++ mid)

/--
A dispatch that acquires the lock after `addFeedbackHandler` has returned invokes the handler, unless
there has been a clear since the handler was added.
-/
def NoLostHandlers (feedbackLib : FeedbackLib) (tr : List (Event Tid (Operation T) (Label T)))
    : Prop :=
  ∀ pre t handler mid u group_feedback inner op post,
    tr = pre ++ .ret t (.addFeedbackHandler handler) ::
      (mid ++ .acquire u (.callAttachedHandlers group_feedback) ::
        (inner ++ .release u op :: post)) →
    (∀ op', .release u op' ∉ inner) →
    ∃ before after,
      pre = before ++ .release t (.addFeedbackHandler handler) :: after ∧
      (∀ op, .release t op ∉ after) ∧
      (.clearFeedbackHandlers ∉ performed (after ++ mid) →
        (handler, .ofHandle feedbackLib group_feedback) ∈ invocations (labelsOf u inner))

namespace Group

variable {lib : HandlerLib R} {feedbackLib : FeedbackLib} {user : HandlerProgram T Code}
variable {g : Group R T} {tr : List (Event Tid (Operation T) (Label T))}
variable {s : State Tid (Operation T) (Pc T Code) (Group R T)}

theorem handlers_of_run (hempty : g.handlers_ = [])
    (hrun : Run (Step (object lib feedbackLib user)) (.start g) tr s) (hfree : s.holder = none)
    : s.shared.handlers_ = addedSinceClear (performed tr) := by
  have ⟨base, hops, hprogress⟩ := inProgress_of_run hrun
  rw [hprogress.shared_of_free hfree, handlers_of_sections hempty hops]

theorem length_handlers_le (hempty : g.handlers_ = [])
    (hrun : Run (Step (object lib feedbackLib user)) (.start g) tr s) (hfree : s.holder = none)
    : s.shared.handlers_.length ≤ tr.length := by
  rw [handlers_of_run hempty hrun hfree]
  refine (length_addedSinceClear_le _).trans ?_
  apply List.length_filterMap_le

theorem exactDispatches (hempty : g.handlers_ = [])
    (hrun : Run (Step (object lib feedbackLib user)) (.start g) tr s)
    : ExactDispatches feedbackLib tr := by
  intro pre t group_feedback inner op post htr hinner
  rw [htr] at hrun
  have ⟨base, pc, g', hops, hsolo, hfinal, _⟩ := section_of_run hrun hinner
  rw [completed_invocations hsolo hfinal, handlers_of_sections hempty hops]

theorem noStaleCalls (hempty : g.handlers_ = [])
    (hrun : Run (Step (object lib feedbackLib user)) (.start g) tr s) : NoStaleCalls tr := by
  intro pre t mid u handler fbk post htr
  rw [htr] at hrun
  have ⟨before, after, hpre, hafter⟩ := released_of_run hrun
  refine ⟨before, after, hpre, hafter, ?_⟩
  rw [← List.cons_append, ← List.append_assoc] at hrun
  have ⟨base, op, labels, pc, g₁, pc', g₂, hops, hsolo, hbody⟩ := body_of_run hrun
  have hmem := invoked_mem_handlers hsolo hbody
  rw [handlers_of_sections hempty hops, hpre] at hmem
  have hperformed
      : performed (before ++ .release t .clearFeedbackHandlers :: after
            ++ .ret t .clearFeedbackHandlers :: mid)
          =
        performed before ++ .clearFeedbackHandlers :: performed (after ++ mid) := by
    simp [Event.performed?]
  rw [hperformed, addedSinceClear_clear] at hmem
  apply mem_of_addedSinceClear hmem

theorem noLostHandlers (hempty : g.handlers_ = [])
    (hrun : Run (Step (object lib feedbackLib user)) (.start g) tr s)
    : NoLostHandlers feedbackLib tr := by
  intro pre t handler mid u group_feedback inner op post htr hinner
  have hexact := exactDispatches hempty hrun
    (pre ++ .ret t (.addFeedbackHandler handler) :: mid) u group_feedback inner op post
    (by simp [htr]) hinner
  rw [htr] at hrun
  have ⟨before, after, hpre, hafter⟩ := released_of_run hrun
  refine ⟨before, after, hpre, hafter, ?_⟩
  intro hclear
  have hperformed
      : performed (pre ++ .ret t (.addFeedbackHandler handler) :: mid)
          =
        performed before ++ .addFeedbackHandler handler :: performed (after ++ mid) := by
    simp [hpre, Event.performed?]
  rw [hexact, hperformed]
  apply List.mem_map_of_mem
  apply mem_addedSinceClear _ hclear

theorem dispatch_linearizable (self : Addr) (internal_ : R)
    (hrun : Run (Step (object lib feedbackLib user)) (.start (new self internal_)) tr s)
    : ExactDispatches feedbackLib tr ∧ NoStaleCalls tr ∧ NoLostHandlers feedbackLib tr := by
  have hempty : (new self internal_ : Group R T).handlers_ = [] := rfl
  exact ⟨exactDispatches hempty hrun, noStaleCalls hempty hrun, noLostHandlers hempty hrun⟩

-- The callback of the first handler is late: when it gets the lock, there are three other ones.
def beforeLateDispatch : List (Event Bool (Operation Nat) (Label Nat)) :=
  [
    .call false (.addFeedbackHandler (some 7)), .acquire false (.addFeedbackHandler (some 7)),
    .body false .silent, .body false .silent, .body false .silent,
    .call true (.callAttachedHandlers 1024),
    .release false (.addFeedbackHandler (some 7)), .ret false (.addFeedbackHandler (some 7)),
    .call false .clearFeedbackHandlers, .acquire false .clearFeedbackHandlers,
    .body false .silent, .body false .silent,
    .release false .clearFeedbackHandlers, .ret false .clearFeedbackHandlers,
    .call false (.addFeedbackHandler (some 5)), .acquire false (.addFeedbackHandler (some 5)),
    .body false .silent, .body false .silent, .body false .silent,
    .release false (.addFeedbackHandler (some 5)), .ret false (.addFeedbackHandler (some 5)),
    .call false (.addFeedbackHandler (some 8)), .acquire false (.addFeedbackHandler (some 8)),
    .body false .silent, .body false .silent,
    .release false (.addFeedbackHandler (some 8)), .ret false (.addFeedbackHandler (some 8)),
    .call false (.addFeedbackHandler (some 5)), .acquire false (.addFeedbackHandler (some 5)),
    .body false .silent, .body false .silent,
    .release false (.addFeedbackHandler (some 5)), .ret false (.addFeedbackHandler (some 5))
  ]

def duringLateDispatch : List (Event Bool (Operation Nat) (Label Nat)) :=
  [
    .body true .silent, .body true .silent,
    .body true (.invoke (some 5) (.ofHandle .twoModules 1024)), .body true .silent,
    .body true .silent, .body true .silent,
    .body true (.invoke (some 8) (.ofHandle .twoModules 1024)), .body true .silent,
    .body true .silent, .body true .silent,
    .body true (.invoke (some 5) (.ofHandle .twoModules 1024)), .body true .silent,
    .body true .silent
  ]

def lateDispatch : List (Event Bool (Operation Nat) (Label Nat)) :=
  beforeLateDispatch ++ .acquire true (.callAttachedHandlers 1024) ::
    (duringLateDispatch ++
      .release true (.callAttachedHandlers 1024) :: [.ret true (.callAttachedHandlers 1024)])

def returningHandlers : HandlerProgram Nat Unit where
  start _ _ := ()
  act _ action := action = .returns

theorem run_lateDispatch
    : ∃ s, Run (Step (object .ofList .twoModules returningHandlers)) (.start (new 1 []))
        lateDispatch s ∧ ∀ t, s.stack t = [] := by
  unfold lateDispatch beforeLateDispatch duringLateDispatch
  apply Run.exists_cons_and (.call rfl)
  apply Run.exists_cons_and (.acquire rfl rfl)
  apply Run.exists_cons_and (.body rfl .pushBack)
  apply Run.exists_cons_and (.body rfl (.first rfl))
  apply Run.exists_cons_and (.body rfl (.registerCallback .FourierStatusSuccess))
  apply Run.exists_cons_and (.call rfl)
  apply Run.exists_cons_and (.release rfl rfl)
  apply Run.exists_cons_and (.ret rfl)
  apply Run.exists_cons_and (.call rfl)
  apply Run.exists_cons_and (.acquire rfl rfl)
  apply Run.exists_cons_and (.body rfl .clearRegistrations)
  apply Run.exists_cons_and (.body rfl .clearHandlers)
  apply Run.exists_cons_and (.release rfl rfl)
  apply Run.exists_cons_and (.ret rfl)
  apply Run.exists_cons_and (.call rfl)
  apply Run.exists_cons_and (.acquire rfl rfl)
  apply Run.exists_cons_and (.body rfl .pushBack)
  apply Run.exists_cons_and (.body rfl (.first rfl))
  apply Run.exists_cons_and (.body rfl (.registerCallback .FourierStatusSuccess))
  apply Run.exists_cons_and (.release rfl rfl)
  apply Run.exists_cons_and (.ret rfl)
  apply Run.exists_cons_and (.call rfl)
  apply Run.exists_cons_and (.acquire rfl rfl)
  apply Run.exists_cons_and (.body rfl .pushBack)
  apply Run.exists_cons_and (.body rfl (.notFirst (by decide)))
  apply Run.exists_cons_and (.release rfl rfl)
  apply Run.exists_cons_and (.ret rfl)
  apply Run.exists_cons_and (.call rfl)
  apply Run.exists_cons_and (.acquire rfl rfl)
  apply Run.exists_cons_and (.body rfl .pushBack)
  apply Run.exists_cons_and (.body rfl (.notFirst (by decide)))
  apply Run.exists_cons_and (.release rfl rfl)
  apply Run.exists_cons_and (.ret rfl)
  apply Run.exists_cons_and (.acquire rfl rfl)
  apply Run.exists_cons_and (.body rfl (.more (by decide)))
  apply Run.exists_cons_and (.body rfl (.copyHandler rfl))
  apply Run.exists_cons_and (.body rfl .callTarget)
  apply Run.exists_cons_and (.body rfl (.returns rfl))
  apply Run.exists_cons_and (.body rfl (.more (by decide)))
  apply Run.exists_cons_and (.body rfl (.copyHandler rfl))
  apply Run.exists_cons_and (.body rfl .callTarget)
  apply Run.exists_cons_and (.body rfl (.returns rfl))
  apply Run.exists_cons_and (.body rfl (.more (by decide)))
  apply Run.exists_cons_and (.body rfl (.copyHandler rfl))
  apply Run.exists_cons_and (.body rfl .callTarget)
  apply Run.exists_cons_and (.body rfl (.returns rfl))
  apply Run.exists_cons_and (.body rfl (.noMore (by decide)))
  apply Run.exists_cons_and (.release rfl rfl)
  apply Run.exists_cons_and (.ret rfl)
  refine ⟨_, .nil, ?_⟩
  intro t
  cases t <;> rfl

theorem dispatch_linearizable_lateDispatch
    : let fbk : GroupFeedback := .ofHandle .twoModules 1024
      ExactDispatches .twoModules lateDispatch ∧ NoStaleCalls lateDispatch ∧
        NoLostHandlers .twoModules lateDispatch ∧
        invocations (labelsOf true duringLateDispatch) = [(some 5, fbk), (some 8, fbk), (some 5, fbk)]
    := by
  have ⟨_, hrun, _⟩ := run_lateDispatch
  have ⟨hexact, hstale, hlost⟩ := dispatch_linearizable 1 [] hrun
  refine ⟨hexact, hstale, hlost, ?_⟩
  rw [hexact beforeLateDispatch true 1024 duringLateDispatch _ _ rfl (by simp [duringLateDispatch])]
  rfl

end Group
end Fourier
