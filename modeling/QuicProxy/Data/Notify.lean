import Mathlib.Tactic.Common

namespace QuicProxy

/-! `tokio::sync::Notify`, as far as `notify_waiters` goes: a call wakes every
waiter that has been enabled before it.  An enabled waiter has a ticket, the
number of calls up to then. -/

structure Notify where
  calls : Nat
deriving DecidableEq

namespace Notify

def new : Notify := ⟨0⟩

def enable (notify : Notify) : Nat := notify.calls

def notifyWaiters (notify : Notify) : Notify := ⟨notify.calls + 1⟩

def Woken (notify : Notify) (ticket : Nat) : Prop := ticket < notify.calls

instance (notify : Notify) (ticket : Nat) : Decidable (notify.Woken ticket) :=
  inferInstanceAs (Decidable (ticket < notify.calls))

def Issued (notify : Notify) (ticket : Nat) : Prop := ticket ≤ notify.calls

variable {notify : Notify} {ticket : Nat}

theorem issued_enable (notify : Notify) : notify.Issued notify.enable := Nat.le_refl _

theorem Issued.notifyWaiters (issued : notify.Issued ticket) :
    notify.notifyWaiters.Issued ticket := Nat.le_succ_of_le issued

theorem Issued.woken (issued : notify.Issued ticket) : notify.notifyWaiters.Woken ticket :=
  Nat.lt_succ_of_le issued

theorem Woken.notifyWaiters (woken : notify.Woken ticket) : notify.notifyWaiters.Woken ticket :=
  Nat.lt_succ_of_lt woken

end Notify

end QuicProxy
