import FourierSDK.Group.Interleaving
import FourierSDK.Group.Starvation
import FourierSDK.Monitor.OrderedStarvation

/-!
This module contains a program with any number of groups, each with a `handler_lock_` of its own. A
handler that is called from one group may add and clear handlers of any group, and then its thread
holds the lock of the one while it waits for the lock of the other.

Seen from one group, such a program is a program with this group alone. What it may do beyond that is
to block: two groups whose handlers use each other wait for each other, while handlers that only use
later groups, in whatever order, never do.
-/

namespace Fourier

open Transition Monitor

variable {G R T Code Tid : Type}

inductive GroupsAction (G T Code : Type) where
  | goOn (code : Code)
  | returns
  | throws
  | addFeedbackHandler (group : G) (handler : GroupFeedbackHandler T) (code : Code)
  | clearFeedbackHandlers (group : G) (code : Code)

structure GroupsProgram (G T Code : Type) where
  start : T → GroupFeedback → Code
  act : Code → GroupsAction G T Code → Prop

namespace GroupsProgram

variable (user : GroupsProgram G T Code)

def quiet : HandlerProgram T Code where
  start := user.start
  act code
    | .goOn code' => user.act code (.goOn code')
    | .returns => user.act code .returns
    | .throws => user.act code .throws
    | .addFeedbackHandler _ _ => False
    | .clearFeedbackHandlers _ => False

def Calls (code code' : Code) : Prop :=
  (∃ group handler, user.act code (.addFeedbackHandler group handler code'))
    ∨ ∃ group, user.act code (.clearFeedbackHandlers group code')

-- The handlers as they are seen from the group that calls them, where calls are steps as others.
def alone : HandlerProgram T Code where
  start := user.start
  act code
    | .goOn code' => user.act code (.goOn code') ∨ user.Calls code code'
    | .returns => user.act code .returns
    | .throws => user.act code .throws
    | .addFeedbackHandler _ _ => False
    | .clearFeedbackHandlers _ => False

end GroupsProgram

namespace Groups

inductive Calls (user : GroupsProgram G T Code)
    : Pc T Code → G → Operation T → Pc T Code → Prop where
  | addFeedbackHandler {wrapped_fbk i code group handler code'}
    (hact : user.act code (.addFeedbackHandler group handler code'))
    : Calls user (.inHandler wrapped_fbk i code) group (.addFeedbackHandler handler)
        (.inHandler wrapped_fbk i code')
  | clearFeedbackHandlers {wrapped_fbk i code group code'}
    (hact : user.act code (.clearFeedbackHandlers group code'))
    : Calls user (.inHandler wrapped_fbk i code) group .clearFeedbackHandlers
        (.inHandler wrapped_fbk i code')

def objects (lib : HandlerLib R) (feedbackLib : FeedbackLib) (user : GroupsProgram G T Code)
    : Several.Objects G (Operation T) (Pc T Code) (Group R T) (Label T) where
  enter := Group.enter feedbackLib
  body := Group.Body lib user.quiet
  calls := Calls user
  final pc := pc = .unlock

variable {lib : HandlerLib R} {feedbackLib : FeedbackLib} {user : GroupsProgram G T Code}

theorem body_alone_of_quiet {pc pc' : Pc T Code} {g g' : Group R T} {label : Label T}
    (h : Group.Body lib user.quiet pc g label pc' g')
    : Group.Body lib user.alone pc g label pc' g' := by
  cases h with
  | pushBack => apply Group.Body.pushBack
  | first hsize => apply Group.Body.first hsize
  | notFirst hsize => apply Group.Body.notFirst hsize
  | registerCallback status => apply Group.Body.registerCallback status
  | clearRegistrations => apply Group.Body.clearRegistrations
  | clearHandlers => apply Group.Body.clearHandlers
  | more hsize => apply Group.Body.more hsize
  | noMore hsize => apply Group.Body.noMore hsize
  | copyHandler hhandler => apply Group.Body.copyHandler hhandler
  | callEmpty => apply Group.Body.callEmpty
  | callTarget => apply Group.Body.callTarget
  | goOn hact => exact .goOn (.inl hact)
  | returns hact => exact .returns hact
  | throws hact => exact .throws hact

theorem body_alone_iff {pc pc' : Pc T Code} {g g' : Group R T} {label : Label T}
    : Group.Body lib user.alone pc g label pc' g'
        ↔
      Group.Body lib user.quiet pc g label pc' g' ∨
        label = .silent ∧ g' = g ∧ ∃ group op, Calls user pc group op pc' := by
  constructor
  . intro h
    cases h with
    | pushBack => exact .inl .pushBack
    | first hsize => exact .inl (.first hsize)
    | notFirst hsize => exact .inl (.notFirst hsize)
    | registerCallback status => exact .inl (.registerCallback status)
    | clearRegistrations => exact .inl .clearRegistrations
    | clearHandlers => exact .inl .clearHandlers
    | more hsize => exact .inl (.more hsize)
    | noMore hsize => exact .inl (.noMore hsize)
    | copyHandler hhandler => exact .inl (.copyHandler hhandler)
    | callEmpty => exact .inl .callEmpty
    | callTarget => exact .inl .callTarget
    | returns hact => exact .inl (.returns hact)
    | throws hact => exact .inl (.throws hact)
    | goOn hact =>
      rcases hact with hact | ⟨group, handler, hact⟩ | ⟨group, hact⟩
      . exact .inl (.goOn hact)
      . exact .inr ⟨rfl, rfl, group, _, .addFeedbackHandler hact⟩
      . exact .inr ⟨rfl, rfl, group, _, .clearFeedbackHandlers hact⟩
  . intro h
    rcases h with h | ⟨hlabel, hg, group, op, hcalls⟩
    . apply body_alone_of_quiet h
    . subst hlabel hg
      cases hcalls with
      | addFeedbackHandler hact => exact .goOn (.inr (.inl ⟨group, _, hact⟩))
      | clearFeedbackHandlers hact => exact .goOn (.inr (.inr ⟨group, hact⟩))

theorem not_calls_alone {pc pc' : Pc T Code} {op : Operation T}
    : ¬Group.Calls user.alone pc op pc' := by
  intro h
  cases h with
  | addFeedbackHandler hact => exact hact
  | clearFeedbackHandlers hact => exact hact

theorem alone_objects
    : (objects lib feedbackLib user).alone .silent = Group.object lib feedbackLib user.alone := by
  unfold Several.Objects.alone Group.object objects
  congr 1
  . funext pc g label pc' g'
    exact propext body_alone_iff.symm
  . funext pc op pc'
    exact propext (iff_of_false not_false not_calls_alone)

variable [DecidableEq G] [DecidableEq Tid] {init : G → Group R T}
variable {tr : List (Several.Event G Tid (Operation T) (Label T))}
variable {s : Several.State G Tid (Operation T) (Pc T Code) (Group R T)}

def seenFrom (group : G) (tr : List (Several.Event G Tid (Operation T) (Label T)))
    : List (Event Tid (Operation T) (Label T)) :=
  tr.filterMap (Several.Event.seen .silent group)

theorem run_seenFrom (hrun : Run (Several.Step (objects lib feedbackLib user)) (.start init) tr s)
    (group : G)
    : Run (Step (Group.object lib feedbackLib user.alone)) (State.start (init group))
        (seenFrom group tr) (s.at group) := by
  rw [← alone_objects]
  apply hrun.project (Several.projects Tid (objects lib feedbackLib user) .silent group)
    (Several.Sound.start init)

theorem each_linearizable (self : G → Addr) (internal_ : G → R)
    (hrun : Run (Several.Step (objects lib feedbackLib user))
      (.start fun group => Group.new (self group) (internal_ group)) tr s)
    (group : G)
    : ExactDispatches feedbackLib (seenFrom group tr) ∧ NoStaleCalls (seenFrom group tr)
        ∧ NoLostHandlers feedbackLib (seenFrom group tr) := by
  have hrun' := run_seenFrom hrun group
  have hempty : (Group.new (self group) (internal_ group) : Group R T).handlers_ = [] := rfl
  exact ⟨Group.exactDispatches hempty hrun', Group.noStaleCalls hempty hrun',
    Group.noLostHandlers hempty hrun'⟩

/-! ### A handler of one group that uses another one -/

-- Handler 7 adds handler 8 to the second group.
def forwardingHandlers : GroupsProgram Bool Nat Bool where
  start target _ := target == 7
  act code action :=
    match code with
    | true => action = .addFeedbackHandler true (some 8) false
    | false => action = .returns

-- While the second group dispatches, a handler of the first one waits to add a handler to it. The
-- next dispatch of the second group invokes it.
def forwarding : List (Several.Event Bool Bool (Operation Nat) (Label Nat)) :=
  [
    .call false false (.addFeedbackHandler (some 7)),
    .acquire false false (.addFeedbackHandler (some 7)),
    .body false false .silent, .body false false .silent, .body false false .silent,
    .release false false (.addFeedbackHandler (some 7)),
    .ret false false (.addFeedbackHandler (some 7)),
    .call true false (.callAttachedHandlers 1024), .acquire true false (.callAttachedHandlers 1024),
    .body true false .silent, .body true false .silent,
    .body true false (.invoke (some 7) (.ofHandle .twoModules 1024)),
    .call false true (.callAttachedHandlers 2048), .acquire false true (.callAttachedHandlers 2048),
    .callFrom true false true (.addFeedbackHandler (some 8))
  ]

def forwarded : List (Several.Event Bool Bool (Operation Nat) (Label Nat)) :=
  [
    .body false true .silent, .release false true (.callAttachedHandlers 2048),
    .acquire true true (.addFeedbackHandler (some 8)),
    .ret false true (.callAttachedHandlers 2048),
    .body true true .silent, .body true true .silent, .body true true .silent,
    .release true true (.addFeedbackHandler (some 8)),
    .ret true true (.addFeedbackHandler (some 8)),
    .body true false .silent, .body true false .silent,
    .release true false (.callAttachedHandlers 1024), .ret true false (.callAttachedHandlers 1024),
    .call false true (.callAttachedHandlers 3072), .acquire false true (.callAttachedHandlers 3072),
    .body false true .silent, .body false true .silent,
    .body false true (.invoke (some 8) (.ofHandle .twoModules 3072)),
    .body false true .silent, .body false true .silent,
    .release false true (.callAttachedHandlers 3072), .ret false true (.callAttachedHandlers 3072)
  ]

def dispatchForwarding : List (Event Bool (Operation Nat) (Label Nat)) :=
  [
    .body true .silent, .body true .silent,
    .body true (.invoke (some 7) (.ofHandle .twoModules 1024)), .body true .silent,
    .body true .silent, .body true .silent
  ]

def dispatchForwarded : List (Event Bool (Operation Nat) (Label Nat)) :=
  [
    .body false .silent, .body false .silent,
    .body false (.invoke (some 8) (.ofHandle .twoModules 3072)), .body false .silent,
    .body false .silent
  ]

theorem run_forwarding
    : ∃ s, Run (Several.Step (objects .ofList .twoModules forwardingHandlers))
        (.start fun _ => Group.new 1 []) forwarding s ∧ s.WaitsFor true false ∧
        (∃ s', Run (Several.Step (objects .ofList .twoModules forwardingHandlers)) s forwarded s' ∧
          ∀ t, s'.stack t = []) := by
  unfold forwarding
  apply Run.exists_cons_and (.call rfl)
  apply Run.exists_cons_and (.acquire rfl rfl)
  apply Run.exists_cons_and (.body rfl .pushBack)
  apply Run.exists_cons_and (.body rfl (.first rfl))
  apply Run.exists_cons_and (.body rfl (.registerCallback .FourierStatusSuccess))
  apply Run.exists_cons_and (.release rfl rfl)
  apply Run.exists_cons_and (.ret rfl)
  apply Run.exists_cons_and (.call rfl)
  apply Run.exists_cons_and (.acquire rfl rfl)
  apply Run.exists_cons_and (.body rfl (.more (by decide)))
  apply Run.exists_cons_and (.body rfl (.copyHandler rfl))
  apply Run.exists_cons_and (.body rfl .callTarget)
  apply Run.exists_cons_and (.call rfl)
  apply Run.exists_cons_and (.acquire rfl rfl)
  apply Run.exists_cons_and (.callFrom rfl (.addFeedbackHandler rfl) (by decide))
  refine ⟨_, .nil, ⟨_, _, _, rfl, rfl⟩, ?_⟩
  unfold forwarded
  apply Run.exists_cons_and (.body rfl (.noMore (by decide)))
  apply Run.exists_cons_and (.release rfl rfl)
  apply Run.exists_cons_and (.acquire rfl rfl)
  apply Run.exists_cons_and (.ret rfl)
  apply Run.exists_cons_and (.body rfl .pushBack)
  apply Run.exists_cons_and (.body rfl (.first rfl))
  apply Run.exists_cons_and (.body rfl (.registerCallback .FourierStatusSuccess))
  apply Run.exists_cons_and (.release rfl rfl)
  apply Run.exists_cons_and (.ret rfl)
  apply Run.exists_cons_and (.body rfl (.returns rfl))
  apply Run.exists_cons_and (.body rfl (.noMore (by decide)))
  apply Run.exists_cons_and (.release rfl rfl)
  apply Run.exists_cons_and (.ret rfl)
  apply Run.exists_cons_and (.call rfl)
  apply Run.exists_cons_and (.acquire rfl rfl)
  apply Run.exists_cons_and (.body rfl (.more (by decide)))
  apply Run.exists_cons_and (.body rfl (.copyHandler rfl))
  apply Run.exists_cons_and (.body rfl .callTarget)
  apply Run.exists_cons_and (.body rfl (.returns rfl))
  apply Run.exists_cons_and (.body rfl (.noMore (by decide)))
  apply Run.exists_cons_and (.release rfl rfl)
  apply Run.exists_cons_and (.ret rfl)
  refine ⟨_, .nil, ?_⟩
  intro t
  cases t <;> rfl

theorem each_linearizable_forwarding
    : let seen (group : Bool) := seenFrom group (forwarding ++ forwarded)
      (∀ group, ExactDispatches .twoModules (seen group) ∧ NoStaleCalls (seen group) ∧
        NoLostHandlers .twoModules (seen group)) ∧
      (∃ pre post,
        seen false
          =
        pre ++ .acquire true (.callAttachedHandlers 1024) ::
          (dispatchForwarding ++ .release true (.callAttachedHandlers 1024) :: post) ∧
        invocations (labelsOf true dispatchForwarding) = [(some 7, .ofHandle .twoModules 1024)]) ∧
      ∃ pre post,
        seen true
          =
        pre ++ .acquire false (.callAttachedHandlers 3072) ::
          (dispatchForwarded ++ .release false (.callAttachedHandlers 3072) :: post) ∧
        invocations (labelsOf false dispatchForwarded) = [(some 8, .ofHandle .twoModules 3072)] := by
  intro seen
  have ⟨_, hrun, _, _, hrun', _⟩ := run_forwarding
  have hlinearizable (group : Bool) :=
    each_linearizable (fun _ => 1) (fun _ => []) (hrun.append hrun') group
  refine ⟨hlinearizable, ⟨(seen false).take 8, (seen false).drop 16, rfl, ?_⟩,
    ⟨(seen true).take 13, (seen true).drop 20, rfl, ?_⟩⟩
  . rw [(hlinearizable false).left ((seen false).take 8) true 1024 dispatchForwarding
      (.callAttachedHandlers 1024) ((seen false).drop 16) rfl (by simp [dispatchForwarding])]
    rfl
  . rw [(hlinearizable true).left ((seen true).take 13) false 3072 dispatchForwarded
      (.callAttachedHandlers 3072) ((seen true).drop 20) rfl (by simp [dispatchForwarded])]
    rfl

/-! ### Who waits for whom -/

def InBounds (pc : Pc T Code) (g : Group R T) : Prop :=
  match pc with
  | .copyHandler _ i => i.toNat < g.handlers_.length
  | _ => True

theorem inBounds_invariant {user : HandlerProgram T Code}
    : (Group.object lib feedbackLib user).Invariant (fun _ => True) InBounds := by
  constructor
  . intro op g _
    cases op <;> trivial
  . intro pc g label pc' g' _ hbody
    cases hbody with
    | more hsize => exact hsize
    | _ => trivial
  . intro pc g op pc' _ hcalls
    cases hcalls <;> trivial
  . intros
    trivial

omit [DecidableEq G] in
theorem canGoOn {pc : Pc T Code} {g : Group R T} (hinBounds : InBounds pc g)
    (hact : ∀ code, ∃ action, user.act code action)
    : (objects lib feedbackLib user).CanGoOn pc g := by
  cases pc with
  | pushBack handler => exact .inr (.inl ⟨_, _, _, .pushBack⟩)
  | testFirst =>
    by_cases hsize : g.handlers_.length = 1
    . exact .inr (.inl ⟨_, _, _, .first hsize⟩)
    . exact .inr (.inl ⟨_, _, _, .notFirst hsize⟩)
  | registerCallback => exact .inr (.inl ⟨_, _, _, .registerCallback .FourierStatusSuccess⟩)
  | clearRegistrations => exact .inr (.inl ⟨_, _, _, .clearRegistrations⟩)
  | clearHandlers => exact .inr (.inl ⟨_, _, _, .clearHandlers⟩)
  | testIndex fbk i =>
    by_cases hsize : i.toNat < g.handlers_.length
    . exact .inr (.inl ⟨_, _, _, .more hsize⟩)
    . exact .inr (.inl ⟨_, _, _, .noMore hsize⟩)
  | copyHandler fbk i =>
    exact .inr (.inl ⟨_, _, _, .copyHandler (List.getElem?_eq_getElem hinBounds)⟩)
  | callHandler fbk i handler =>
    cases handler with
    | none => exact .inr (.inl ⟨_, _, _, .callEmpty⟩)
    | some target => exact .inr (.inl ⟨_, _, _, .callTarget⟩)
  | unlock => exact .inl rfl
  | inHandler fbk i code =>
    have ⟨action, hact⟩ := hact code
    cases action with
    | goOn code' => exact .inr (.inl ⟨_, _, _, .goOn hact⟩)
    | returns => exact .inr (.inl ⟨_, _, _, .returns hact⟩)
    | throws => exact .inr (.inl ⟨_, _, _, .throws hact⟩)
    | addFeedbackHandler group handler code' =>
      exact .inr (.inr ⟨_, _, _, .addFeedbackHandler hact⟩)
    | clearFeedbackHandlers group code' => exact .inr (.inr ⟨_, _, _, .clearFeedbackHandlers hact⟩)

theorem going (hact : ∀ code, ∃ action, user.act code action)
    (hrun : Run (Several.Step (objects lib feedbackLib user)) (.start init) tr s)
    : Several.Going (objects lib feedbackLib user) s := by
  intro t group op pc fs hstack
  have hsound := Several.sound_of_run hrun
  have hholder : s.holder group = some t := by
    rw [hsound.holder, hstack]
    simp
  have hkept := kept_of_run inBounds_invariant trivial (run_seenFrom hrun group)
  have hseen := s.at_stack_of_fresh hstack (hsound.fresh hstack)
  apply canGoOn _ hact
  apply hkept.of_inside hholder hseen

theorem never_deadlocked [Preorder G] [WellFoundedGT G]
    (hact : ∀ code, ∃ action, user.act code action)
    (hrun : Run (Several.Step (objects lib feedbackLib user)) (.start init) tr s)
    (hup : ∀ e ∈ tr, e.Upward) (t : Tid) (hbusy : s.stack t ≠ [])
    : ∃ e s', Relation.ReflTransGen s.WaitsFor t e.thread ∧ s.stack e.thread ≠ [] ∧
        Several.Step (objects lib feedbackLib user) s e s' := by
  apply Several.step_of_busy
  . apply Several.sound_of_run hrun
  . apply Several.ascending_of_run hrun hup
  . apply going hact hrun
  . exact hbusy

theorem exists_forwardingHandlers (code : Bool)
    : ∃ action, forwardingHandlers.act code action := by
  cases code with
  | true => exact ⟨_, rfl⟩
  | false => exact ⟨_, rfl⟩

theorem upward_forwarding : ∀ e ∈ forwarding, e.Upward := by
  simp [forwarding, Several.Event.Upward]

theorem never_deadlocked_forwarding
    : ∃ s, Run (Several.Step (objects .ofList .twoModules forwardingHandlers))
          (.start fun _ => Group.new 1 []) forwarding s ∧
        ∃ e s', Relation.ReflTransGen s.WaitsFor true e.thread ∧ s.stack e.thread ≠ [] ∧
          Several.Step (objects .ofList .twoModules forwardingHandlers) s e s' := by
  have ⟨s, hrun, hwaits, _⟩ := run_forwarding
  refine ⟨s, hrun, ?_⟩
  apply never_deadlocked exists_forwardingHandlers hrun upward_forwarding
  have ⟨_, _, _, hstack, _⟩ := hwaits
  simp [hstack]

-- Handler 7 of the first group uses the second one, handler 9 of the second one the first one.
def crossingHandlers : GroupsProgram Bool Nat Nat where
  start target _ := target
  act code action :=
    match code with
    | 7 => action = .addFeedbackHandler true none 0
    | 9 => action = .addFeedbackHandler false none 0
    | _ => action = .returns

def crossing : List (Several.Event Bool Bool (Operation Nat) (Label Nat)) :=
  [
    .call false false (.addFeedbackHandler (some 7)),
    .acquire false false (.addFeedbackHandler (some 7)),
    .body false false .silent, .body false false .silent, .body false false .silent,
    .release false false (.addFeedbackHandler (some 7)),
    .ret false false (.addFeedbackHandler (some 7)),
    .call false true (.addFeedbackHandler (some 9)),
    .acquire false true (.addFeedbackHandler (some 9)),
    .body false true .silent, .body false true .silent, .body false true .silent,
    .release false true (.addFeedbackHandler (some 9)),
    .ret false true (.addFeedbackHandler (some 9)),
    .call false false (.callAttachedHandlers 1024), .acquire false false (.callAttachedHandlers 1024),
    .body false false .silent, .body false false .silent,
    .body false false (.invoke (some 7) (.ofHandle .twoModules 1024)),
    .call true true (.callAttachedHandlers 2048), .acquire true true (.callAttachedHandlers 2048),
    .body true true .silent, .body true true .silent,
    .body true true (.invoke (some 9) (.ofHandle .twoModules 2048)),
    .callFrom false false true (.addFeedbackHandler none),
    .callFrom true true false (.addFeedbackHandler none)
  ]

theorem crossing_handlers_deadlock
    : ∃ s, Run (Several.Step (objects .ofList .twoModules crossingHandlers))
          (.start fun _ => Group.new 1 []) crossing s ∧
        s.WaitsFor false true ∧ s.WaitsFor true false ∧
        ∀ e s', ¬Several.Step (objects .ofList .twoModules crossingHandlers) s e s' := by
  have hrun : ∃ s, Run (Several.Step (objects .ofList .twoModules crossingHandlers))
      (.start fun _ => Group.new 1 []) crossing s ∧
      s.WaitsFor false true ∧ s.WaitsFor true false := by
    unfold crossing
    apply Run.exists_cons_and (.call rfl)
    apply Run.exists_cons_and (.acquire rfl rfl)
    apply Run.exists_cons_and (.body rfl .pushBack)
    apply Run.exists_cons_and (.body rfl (.first rfl))
    apply Run.exists_cons_and (.body rfl (.registerCallback .FourierStatusSuccess))
    apply Run.exists_cons_and (.release rfl rfl)
    apply Run.exists_cons_and (.ret rfl)
    apply Run.exists_cons_and (.call rfl)
    apply Run.exists_cons_and (.acquire rfl rfl)
    apply Run.exists_cons_and (.body rfl .pushBack)
    apply Run.exists_cons_and (.body rfl (.first rfl))
    apply Run.exists_cons_and (.body rfl (.registerCallback .FourierStatusSuccess))
    apply Run.exists_cons_and (.release rfl rfl)
    apply Run.exists_cons_and (.ret rfl)
    apply Run.exists_cons_and (.call rfl)
    apply Run.exists_cons_and (.acquire rfl rfl)
    apply Run.exists_cons_and (.body rfl (.more (by decide)))
    apply Run.exists_cons_and (.body rfl (.copyHandler rfl))
    apply Run.exists_cons_and (.body rfl .callTarget)
    apply Run.exists_cons_and (.call rfl)
    apply Run.exists_cons_and (.acquire rfl rfl)
    apply Run.exists_cons_and (.body rfl (.more (by decide)))
    apply Run.exists_cons_and (.body rfl (.copyHandler rfl))
    apply Run.exists_cons_and (.body rfl .callTarget)
    apply Run.exists_cons_and (.callFrom rfl (.addFeedbackHandler rfl) (by decide))
    apply Run.exists_cons_and (.callFrom rfl (.addFeedbackHandler rfl) (by decide))
    exact ⟨_, .nil, ⟨_, _, _, rfl, rfl⟩, ⟨_, _, _, rfl, rfl⟩⟩
  have ⟨s, hrun, hfalse, htrue⟩ := hrun
  refine ⟨s, hrun, hfalse, htrue, ?_⟩
  intro e s'
  apply Several.not_step_of_all_waiting
  intro t
  cases t with
  | false => exact ⟨true, hfalse⟩
  | true => exact ⟨false, htrue⟩

/-! ### Every call returns -/

structure WellBehaved [Preorder G]
    (E : Execution (Several.Step (objects lib feedbackLib user))
      (.start init : Several.State G Tid (Operation T) (Pc T Code) (Group R T))) : Prop where
  upward : ∀ n e, E.event n = some e → e.Upward
  size : ∀ n t group group_feedback,
    E.event n = some (.acquire t group (.callAttachedHandlers group_feedback)) →
    ((E.state n).shared group).handlers_.length < 2 ^ 32
  finishes : ∀ n t group group_feedback target,
    E.event n = some (.acquire t group (.callAttachedHandlers group_feedback)) →
    some target ∈ ((E.state n).shared group).handlers_ →
    user.alone.Finishes (user.start target (.ofHandle feedbackLib group_feedback))

theorem WellBehaved.terminating [Preorder G]
    {E : Execution (Several.Step (objects lib feedbackLib user))
      (.start init : Several.State G Tid (Operation T) (Pc T Code) (Group R T))}
    (h : WellBehaved E) : Several.Terminating .silent E := by
  constructor
  . apply h.upward
  . intro n t group op hacquire
    rw [alone_objects]
    apply Group.completes_enter
    . intro group_feedback hop
      rw [hop] at hacquire
      apply h.size n t group group_feedback hacquire
    . intro group_feedback target hop htarget
      rw [hop] at hacquire
      apply h.finishes n t group group_feedback target hacquire htarget

theorem calls_between_groups_return [Preorder G] [WellFoundedGT G]
    (E : Execution (Several.Step (objects lib feedbackLib user))
      (.start init : Several.State G Tid (Operation T) (Pc T Code) (Group R T)))
    (h : WellBehaved E) (hfair : Several.FairScheduler E) (n : Nat) (t : Tid) (group : G)
    (op : Operation T) (e : Several.Event G Tid (Operation T) (Label T))
    (he : E.event n = some e)
    (hcall : e = .call t group op ∨ ∃ caller, e = .callFrom t caller group op)
    : ∃ m, n < m ∧ E.event m = some (.ret t group op) := by
  apply h.terminating.returns hfair he hcall

theorem finishes_forwardingHandlers (code : Bool) : forwardingHandlers.alone.Finishes code := by
  have hreturns : forwardingHandlers.alone.Finishes false := by
    constructor
    . exact ⟨.returns, rfl⟩
    . intro action code hact hnext
      cases action with
      | goOn code' =>
        rcases hact with hact | ⟨group, handler, hact⟩ | ⟨group, hact⟩
        . cases hact
        . cases hact
        . cases hact
      | returns => cases hnext
      | throws => cases hnext
      | addFeedbackHandler => exact hact.elim
      | clearFeedbackHandlers => exact hact.elim
  cases code with
  | false => exact hreturns
  | true =>
    constructor
    . exact ⟨.goOn false, .inr (.inl ⟨true, some 8, rfl⟩)⟩
    . intro action code hact hnext
      cases action with
      | goOn code' =>
        rcases hact with hact | ⟨group, handler, hact⟩ | ⟨group, hact⟩
        . cases hact
        . cases hact
          cases hnext
          exact hreturns
        . cases hact
      | returns => cases hnext
      | throws => cases hnext
      | addFeedbackHandler => exact hact.elim
      | clearFeedbackHandlers => exact hact.elim

theorem calls_between_groups_return_forwarding
    : ∃ E : Execution (Several.Step (objects .ofList .twoModules forwardingHandlers))
          (.start fun _ => Group.new 1 []),
        (∀ n, E.event n = (forwarding ++ forwarded)[n]?) ∧
        ∃ m, 14 < m ∧ E.event m = some (.ret true true (.addFeedbackHandler (some 8))) := by
  have ⟨_, hrun, _, s, hrun', hrest⟩ := run_forwarding
  have ⟨E, hevent, hstate⟩ := Execution.exists_of_run (hrun.append hrun')
  have hlength : (forwarding ++ forwarded).length = 37 := rfl
  have hidle (m : Nat) (hm : 37 ≤ m) : E.event m = none := by
    rw [hevent, List.getElem?_eq_none_iff, hlength]
    exact hm
  have hupward : ∀ e ∈ forwarding ++ forwarded, e.Upward := by
    simp [forwarding, forwarded, Several.Event.Upward]
  have hwell : WellBehaved E := by
    constructor
    . intro n e he
      apply hupward
      rw [hevent] at he
      apply List.mem_of_getElem? he
    . intro n t group group_feedback he
      have hfree := (E.next n _ he).free_of_acquire rfl
      have hsize := Group.length_handlers_le rfl (run_seenFrom (E.run n) group) hfree
      have hseen := List.length_filterMap_le (Several.Event.seen .silent group) (E.trace n)
      have htrace := E.length_trace_le n
      have hn := (List.getElem?_eq_some_iff.mp ((hevent n).symm.trans he)).1
      rw [hlength] at hn
      have hlt : 37 < 2 ^ 32 := by decide
      apply (hsize.trans (hseen.trans htrace)).trans_lt (hn.trans hlt)
    . intro n t group group_feedback target _ _
      apply finishes_forwardingHandlers
  refine ⟨E, hevent, ?_⟩
  apply calls_between_groups_return E hwell (Several.FairScheduler.of_rest E (n := 37) ?_) 14 true
    true _ _ (hevent 14) (.inr ⟨false, rfl⟩)
  intro m hm t
  rw [E.state_of_idle hidle m hm, ← hlength, hstate]
  apply hrest t

end Groups
end Fourier
