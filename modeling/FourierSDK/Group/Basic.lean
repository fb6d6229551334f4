import FourierSDK.Aios.Handlers
import FourierSDK.GroupFeedback.Basic
import FourierSDK.Cpp.Prog

/-!
This module contains the class `Group` as far as its feedback handlers are concerned.

A `GroupFeedbackHandler` is a `std::function`, hence `none` or a callable `T` that is copied with
it. What a callable does is user code: a call gets the view of the feedback and the state `U` of the
rest of the user's program, changes the callable itself and `U`, and returns or throws an `E`.

A `Program` is the state of a thread that runs the member functions of one group: the group and its
`handler_lock_`, the user's state, and two logs that nothing reads, one of the calls of handlers
(the callable as it is when the call starts, and its argument) and one of the feedback handles
passed to `fourierGroupFeedbackRelease`. The address of the group, which is the user data of its
callback, is `self`, and `internal_` is the state of the C group. The lock is kept apart from the
rest of the group, as all the other members are accessed under it.
-/

namespace Fourier

open Cpp Cpp.Prog

abbrev GroupFeedbackHandler (T : Type) := Option T

structure Group (R T : Type) where
  self : Addr
  internal_ : R
  handlers_ : List (GroupFeedbackHandler T)
  deriving DecidableEq, Repr

structure Program (R T U : Type) where
  group : Group R T
  handler_lock_ : Bool
  user : U
  invocations : List (GroupFeedbackHandler T × GroupFeedback)
  released : List FourierGroupFeedbackPtr
  deriving DecidableEq, Repr

inductive Exception (E : Type) where
  | bad_function_call
  | user (e : E)
  deriving DecidableEq, Repr

structure UserCode (T U E : Type) where
  call : T → GroupFeedback → U → Except E Unit × T × U

variable {R T U E : Type}

def Program.setLock (p : Program R T U) (held : Bool) : Program R T U :=
  { p with handler_lock_ := held }

@[simp]
theorem Program.setLock_group (p : Program R T U) (held : Bool)
    : (p.setLock held).group = p.group := by
  rfl

namespace Group

def new (self : Addr) (internal_ : R) : Group R T :=
  { self, internal_, handlers_ := [] }

-- To lock a mutex that is held blocks, or is undefined behaviour for the thread that holds it.
def lock : Prog (Exception E) (Program R T U) Unit := do
  if ← read (·.handler_lock_) then
    undefined
  else
    modify (·.setLock true)

def unlock : Prog (Exception E) (Program R T U) Unit := modify (·.setLock false)

-- `std::lock_guard<std::mutex> lock_guard(handler_lock_);` followed by the rest of the block.
def lockGuard (body : Prog (Exception E) (Program R T U) Unit)
    : Prog (Exception E) (Program R T U) Unit :=
  withLocal lock (fun _ => unlock) (fun _ => body)

theorem lock_run {p : Program R T U} (h : p.handler_lock_ = false)
    : (lock : Prog (Exception E) _ _) p = some (.ok (), p.setLock true) := by
  unfold lock
  rw [bind_of_returned (x := read _) rfl]
  simp only [h, Bool.false_eq_true, ↓reduceIte]
  rfl

theorem lockGuard_run {body : Prog (Exception E) (Program R T U) Unit} {p p' : Program R T U}
    {r : Except (Exception E) Unit} (h : p.handler_lock_ = false)
    (hbody : body (p.setLock true) = some (r, p'))
    : lockGuard body p = some (r, p'.setLock false) := by
  unfold lockGuard
  apply withLocal_run
  . apply lock_run h
  . apply hbody
  . rfl

theorem lockGuard_eq_none {body : Prog (Exception E) (Program R T U) Unit} {p : Program R T U}
    (h : p.handler_lock_ = false) (hbody : body (p.setLock true) = none)
    : lockGuard body p = none := by
  unfold lockGuard
  apply withLocal_eq_none
  . apply lock_run h
  . apply hbody

def pushBack (handler : GroupFeedbackHandler T) : Prog (Exception E) (Program R T U) Unit :=
  modify fun p => { p with group := { p.group with handlers_ := p.group.handlers_ ++ [handler] } }

def registerFeedbackHandler (lib : HandlerLib R) (status : FourierStatusCode)
    : Prog (Exception E) (Program R T U) FourierStatusCode := do
  modify fun p =>
    let internal_ := lib.fourierGroupRegisterFeedbackHandler p.group.internal_
      ⟨.callbackWrapper, p.group.self⟩ status
    { p with group := { p.group with internal_ } }
  return status

/--
`status` is what the C library returns should it be asked to register the callback.
-/
def addFeedbackHandler (lib : HandlerLib R) (handler : GroupFeedbackHandler T)
    (status : FourierStatusCode) : Prog (Exception E) (Program R T U) Unit :=
  lockGuard do
    pushBack handler
    if (← read (·.group.handlers_.length)) = 1 then
      -- the status is discarded
      let _ ← registerFeedbackHandler lib status

def clearFeedbackHandlers (lib : HandlerLib R) : Prog (Exception E) (Program R T U) Unit :=
  lockGuard do
    modify fun p =>
      let internal_ := lib.fourierGroupClearFeedbackHandlers p.group.internal_
      { p with group := { p.group with internal_ } }
    modify fun p => { p with group := { p.group with handlers_ := [] } }

-- `GroupFeedbackHandler handler = handlers_[i];`
def copyHandler (i : Nat) : Prog (Exception E) (Program R T U) (GroupFeedbackHandler T) := do
  match ← read (·.group.handlers_[i]?) with
  | some handler => pure handler
  | none => undefined

-- The call changes the callable it is applied to, here the local copy, which is then gone.
def callHandler (code : UserCode T U E) (handler : GroupFeedbackHandler T) (fbk : GroupFeedback)
    : Prog (Exception E) (Program R T U) Unit := do
  modify fun p => { p with invocations := p.invocations ++ [(handler, fbk)] }
  match handler with
  | none => throwing .bad_function_call
  | some target =>
    fun p =>
      let (outcome, _, user) := code.call target fbk p.user
      some (outcome.mapError .user, { p with user })

def handlerLoop (code : UserCode T U E) (fuel : Nat) (wrapped_fbk : GroupFeedback)
    : Prog (Exception E) (Program R T U) Unit :=
  forLoop
    (fun i p => decide (i.toNat < p.group.handlers_.length))
    (fun i => do
      let handler ← copyHandler i.toNat
      catchAll (callHandler code handler wrapped_fbk))
    fuel
    (0 : BitVec 32)

def callAttachedHandlers (lib : FeedbackLib) (code : UserCode T U E) (fuel : Nat)
    (group_feedback : FourierGroupFeedbackPtr) : Prog (Exception E) (Program R T U) Unit :=
  withLocal
    (pure (GroupFeedback.ofHandle lib group_feedback))
    (fun wrapped_fbk => modify fun p => { p with released := p.released ++ wrapped_fbk.destroyed })
    (fun wrapped_fbk => lockGuard (handlerLoop code fuel wrapped_fbk))

-- The user data must be the address of the group, as it is where the callback is registered.
def callbackWrapper (lib : FeedbackLib) (code : UserCode T U E) (fuel : Nat)
    (group_feedback : FourierGroupFeedbackPtr) (user_data : Addr)
    : Prog (Exception E) (Program R T U) Unit := do
  if user_data = (← read (·.group.self)) then
    callAttachedHandlers lib code fuel group_feedback
  else
    undefined

end Group
end Fourier
