import LivePoly.Lib.Process
import LivePoly.Lib.Sessions

/-!
# Service.Database

What the services that run transactions share. The executor of a statement is the session of its
transaction. A statement fails when the lock it needs is another's: a session that waits takes its
turn when the lock is free, and one that cannot wait any longer, as in a deadlock, is aborted.
-/

namespace LivePoly
namespace Service

open Process

structure UserId where
  uuid : Nat
  deriving DecidableEq

structure RoomId where
  uuid : Nat
  deriving DecidableEq

structure GameId where
  uuid : Nat
  deriving DecidableEq

inductive DatabaseError where
  | lockNotAvailable | uniqueViolation | checkViolation | failed
  deriving DecidableEq

namespace DatabaseService

variable {Op : Type} {Ans : Op → Type} {ε α : Type}

/-- `db.transaction(callback)`: what the callback throws rolls the transaction back. -/
def transaction (commit rollback : Proc Op Ans ε Unit) (callback : Proc Op Ans ε α) :
    Proc Op Ans ε α :=
  tryCatch
    (do
      let result ← callback
      commit
      return result)
    fun error => do
      rollback
      throw error

end DatabaseService

end Service
end LivePoly
