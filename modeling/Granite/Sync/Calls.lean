import Mathlib.Logic.Basic

/-!
# Dispatching Calls to Synchronization Primitives

The translator asks `is_supported_function` whether a called function is one
of the synchronization or thread primitives it models, and then hands the call
to `call_function` (`translator/sync.rs`), which picks the handler by the
function's name and panics on a name it has no handler for.

The two lists differ in one name. `std::thread::spawn` is supported but has
no branch in `call_function`, so a supported call reaches the panic
(`callFunction_eq_ok_iff`). The handlers themselves live in the condition
variable, mutex and thread modules; here a handler is only named, with
whether it hands back a postprocessing task.

## Main definitions

* `isSupportedFunction`: The supported names.
* `callFunction`: The dispatch, with its panic.

## Theorems

* `callFunction_eq_ok_iff`: The names that reach a handler.
-/

namespace Granite.Sync

/-- The handlers of `call_function`. -/
inductive Handler where
  | condvarNew
  | condvarNotifyOne
  | condvarWait
  | mutexLock
  | mutexNew
  | threadJoin
deriving DecidableEq, Repr

/-- Whether the translator models a call to `functionName`. -/
def isSupportedFunction (functionName : String) : Bool :=
  match functionName with
  | "std::sync::Condvar::new" | "std::sync::Condvar::notify_one" | "std::sync::Condvar::wait"
  | "std::sync::Condvar::wait_while" | "std::sync::Mutex::<T>::lock"
  | "std::sync::Mutex::<T>::new" | "std::thread::spawn" | "std::thread::JoinHandle::<T>::join" =>
      true
  | _ => false

/-- The handler a call to `functionName` goes to, with whether it returns a
    postprocessing task (`Some(task)`), or the panic of the last branch. -/
def callFunction (functionName : String) : Except String (Handler × Bool) :=
  match functionName with
  | "std::sync::Condvar::new" => .ok (.condvarNew, false)
  | "std::sync::Condvar::notify_one" => .ok (.condvarNotifyOne, false)
  | "std::sync::Condvar::wait" | "std::sync::Condvar::wait_while" => .ok (.condvarWait, true)
  | "std::sync::Mutex::<T>::lock" => .ok (.mutexLock, false)
  | "std::sync::Mutex::<T>::new" => .ok (.mutexNew, true)
  | "std::thread::JoinHandle::<T>::join" => .ok (.threadJoin, false)
  | _ => .error s!"BUG: Call handler for {functionName} is not defined"

/-- `call_function` reaches a handler for exactly the supported names other
    than `std::thread::spawn`; on every other name it panics. -/
theorem callFunction_eq_ok_iff (functionName : String) :
    (∃ handler, callFunction functionName = .ok handler) ↔
      isSupportedFunction functionName = true ∧ functionName ≠ "std::thread::spawn" := by
  unfold callFunction isSupportedFunction
  split <;> split <;> simp_all

example : callFunction "std::thread::spawn" =
    .error "BUG: Call handler for std::thread::spawn is not defined" := rfl

end Granite.Sync
