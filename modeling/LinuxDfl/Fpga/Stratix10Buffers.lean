import LinuxDfl.Fpga.Stratix10
import Mathlib.Data.List.Count
import Mathlib.Data.List.ReduceOption

/-!
# Who holds a buffer of the service layer

A buffer is locked when the service layer owns it, when it is on its way back
in a callback, when the call works on it, or when it has been freed.  There is
never more than one of these, since a lock is only taken while it is free.
-/

namespace LinuxDfl.Fpga.Stratix10

open LinuxDfl.Kernel

/-- Buffers are only filled, and freed, while they are not owned. -/
def Orderly : List Event → Prop
  | [] => True
  | .filled addr :: earlier | .freed addr :: earlier =>
      owned addr earlier = false ∧ Orderly earlier
  | .submitted _ _ :: earlier | .returned _ :: earlier => Orderly earlier

/-- The buffer which the call works on. -/
def Stage.holder : Stage → Option (Fin numSvcBufs)
  | .fill i | .send i _ _ | .unlock i | .freeMemory _ i _ _ _ => some i
  | _ => none

/-- How often a buffer is on its way back. -/
def pending (addr : Addr) (callback : List CallbackOp) : Nat :=
  callback.count (.unlockBufs (some addr))

/-! ## One buffer -/

/-- The lock of a buffer which was allocated at `addr` accounts for it. -/
structure Held (addr : Addr) (svcBuf : SvcBuf) (log : List Event)
    (callback : List CallbackOp) (working : Bool) : Prop where
  held : svcBuf.lock.toNat =
    (owned addr log).toNat + pending addr callback + working.toNat +
      svcBuf.buf.isNone.toNat
  address : ∀ kaddr, svcBuf.buf = some kaddr → kaddr = addr
  freed : log.count (.freed addr) = svcBuf.buf.isNone.toNat

section Moves

variable {addr other : Addr} {svcBuf : SvcBuf} {log : List Event}
  {callback : List CallbackOp}

/-- A buffer which is not locked is not held in any way. -/
theorem Held.unlocked {working : Bool}
    (held : Held addr svcBuf log callback working)
    (unlocked : svcBuf.lock = false) : svcBuf.buf = some addr := by
  have none := held.held
  rw [unlocked] at none
  cases buf : svcBuf.buf with
  | none =>
      rw [buf, Option.isNone_none] at none
      simp at none
  | some kaddr => rw [held.address kaddr buf]

/-- The buffer which the call works on is not held otherwise. -/
theorem Held.working (held : Held addr svcBuf log callback true) :
    owned addr log = false ∧ svcBuf.buf = some addr ∧
      pending addr callback = 0 ∧ svcBuf.lock = true := by
  have once := held.held
  have most := Bool.toNat_le svcBuf.lock
  rw [Bool.toNat_true] at once
  have notOwned : owned addr log = false := by
    rw [← Bool.toNat_eq_zero]
    omega
  have there : svcBuf.buf.isNone = false := by
    rw [← Bool.toNat_eq_zero]
    omega
  have locked : svcBuf.lock = true := by
    rw [← Bool.toNat_eq_one]
    omega
  refine ⟨notOwned, ?_, by omega, locked⟩
  rw [Option.isNone_eq_false_iff, Option.isSome_iff_exists] at there
  obtain ⟨kaddr, buf⟩ := there
  rw [buf, held.address kaddr buf]

theorem Held.take (held : Held addr svcBuf log callback false)
    (unlocked : svcBuf.lock = false) :
    Held addr { svcBuf with lock := true } log callback true where
  held := by
    have none := held.held
    rw [unlocked] at none
    simp only [Bool.toNat_true, Bool.toNat_false] at none ⊢
    omega
  address := held.address
  freed := held.freed

theorem Held.release (held : Held addr svcBuf log callback true) :
    Held addr { svcBuf with lock := false } log callback false where
  held := by
    obtain ⟨notOwned, buf, notPending, -⟩ := held.working
    rw [notOwned, notPending, buf]
    rfl
  address := held.address
  freed := held.freed

theorem Held.filled {working : Bool}
    (held : Held addr svcBuf log callback working) :
    Held addr svcBuf (.filled other :: log) callback working where
  held := held.held
  address := held.address
  freed := by
    rw [List.count_cons_of_ne (by simp)]
    exact held.freed

/-- The buffer is handed over to the service layer. -/
theorem Held.submitted (held : Held addr svcBuf log callback true)
    (payload : List UInt8) :
    Held addr svcBuf (.submitted addr payload :: log) callback false where
  held := by
    obtain ⟨-, buf, notPending, locked⟩ := held.working
    rw [notPending, buf, locked, owned, beq_self_eq_true, Bool.true_or]
    rfl
  address := held.address
  freed := by
    rw [List.count_cons_of_ne (by simp)]
    exact held.freed

/-- The buffer is given back for good. -/
theorem Held.free (held : Held addr svcBuf log callback true) :
    Held addr { svcBuf with buf := none } (.freed addr :: log) callback
      false where
  held := by
    obtain ⟨notOwned, -, notPending, locked⟩ := held.working
    rw [notPending, locked, owned, notOwned]
    rfl
  address kaddr buf := nomatch buf
  freed := by
    obtain ⟨-, buf, -, -⟩ := held.working
    rw [List.count_cons_self, held.freed, buf]
    rfl

/-- What happens to another buffer does not matter. -/
theorem Held.submitted_other {working : Bool}
    (held : Held addr svcBuf log callback working) (differs : other ≠ addr)
    (payload : List UInt8) :
    Held addr svcBuf (.submitted other payload :: log) callback working where
  held := by
    rw [owned, beq_false_of_ne differs, Bool.false_or]
    exact held.held
  address := held.address
  freed := by
    rw [List.count_cons_of_ne (by simp)]
    exact held.freed

theorem Held.free_other {working : Bool}
    (held : Held addr svcBuf log callback working) (differs : other ≠ addr) :
    Held addr svcBuf (.freed other :: log) callback working where
  held := held.held
  address := held.address
  freed := by
    rw [List.count_cons_of_ne (by simpa using differs)]
    exact held.freed

/-- An access of a callback which does not unlock the buffer. -/
theorem Held.callback_other {op : CallbackOp} {working : Bool}
    (held : Held addr svcBuf log (op :: callback) working)
    (differs : op ≠ .unlockBufs (some addr)) :
    Held addr svcBuf log callback working where
  held := by
    have before := held.held
    rwa [pending, List.count_cons_of_ne differs] at before
  address := held.address
  freed := held.freed

/-- A buffer which is on its way back is there, and nobody works on it. -/
theorem Held.pending_buf {working : Bool}
    (held : Held addr svcBuf log
      (.unlockBufs (some addr) :: callback) working) :
    svcBuf.buf = some addr := by
  have before := held.held
  have most := Bool.toNat_le svcBuf.lock
  rw [pending, List.count_cons_self] at before
  cases buf : svcBuf.buf with
  | none =>
      rw [buf, Option.isNone_none, Bool.toNat_true] at before
      omega
  | some kaddr => rw [held.address kaddr buf]

theorem Held.unlock {working : Bool}
    (held : Held addr svcBuf log
      (.unlockBufs (some addr) :: callback) working) :
    Held addr { svcBuf with lock := false } log callback working where
  held := by
    have before := held.held
    have most := Bool.toNat_le svcBuf.lock
    rw [pending, List.count_cons_self] at before
    rw [pending]
    dsimp only
    rw [Bool.toNat_false]
    omega
  address := held.address
  freed := held.freed

/-! ## A callback -/

theorem owned_returns (returns : List Addr) :
    owned addr (returns.map .returned ++ log) =
      (decide (addr ∉ returns) && owned addr log) := by
  induction returns with
  | nil => simp
  | cons back returns ih =>
      rw [List.map_cons, List.cons_append, owned, ih]
      by_cases same : back = addr
      · simp [same]
      · have differs : addr ≠ back := fun same' => same same'.symm
        simp [same, differs]

theorem count_reduceOption (kaddrs : List (Option Addr)) :
    kaddrs.count (some addr) = kaddrs.reduceOption.count addr := by
  induction kaddrs with
  | nil => rfl
  | cons kaddr kaddrs ih =>
      cases kaddr with
      | none =>
          rw [List.count_cons_of_ne (by simp), ih, List.reduceOption_cons_of_none]
      | some back =>
          rw [List.reduceOption_cons_of_some, List.count_cons, List.count_cons,
            ih]
          simp

/-- What is on its way back with a callback. -/
theorem pending_receive (data : CbData) :
    pending addr (s10ReceiveCallback data) = data.returns.count addr := by
  have bits : (data.status.map CallbackOp.setBit).count
      (.unlockBufs (some addr)) = 0 := by
    rw [List.count_eq_zero]
    simp
  rw [pending, s10ReceiveCallback, List.count_append, List.count_append, bits,
    Nat.zero_add, CbData.returns]
  split
  · have unlocks :
        [CallbackOp.unlockBufs data.kaddr1, .unlockBufs data.kaddr2,
            .unlockBufs data.kaddr3].count (.unlockBufs (some addr)) =
          [data.kaddr1, data.kaddr2, data.kaddr3].count (some addr) :=
      List.count_map_of_injective [data.kaddr1, data.kaddr2, data.kaddr3]
        CallbackOp.unlockBufs (fun _ _ same => CallbackOp.unlockBufs.inj same)
        (some addr)
    rw [unlocks, count_reduceOption]
    rfl
  · rfl

/-- What the service layer returns is on its way back then. -/
theorem Held.receive {working : Bool}
    (held : Held addr svcBuf log [] working) {data : CbData}
    (once : data.returns.Nodup)
    (owns : ∀ back ∈ data.returns, owned back log = true) :
    Held addr svcBuf (data.returns.map .returned ++ log)
      (s10ReceiveCallback data) working where
  held := by
    have before := held.held
    rw [owned_returns, pending_receive]
    by_cases back : addr ∈ data.returns
    · rw [owns addr back] at before
      rw [List.count_eq_one_of_mem once back]
      simpa [back, pending] using before
    · rw [List.count_eq_zero_of_not_mem back]
      simpa [back, pending] using before
  address := held.address
  freed := by
    have none : (data.returns.map Event.returned).count (.freed addr) = 0 := by
      rw [List.count_eq_zero]
      simp
    rw [List.count_append, none, Nat.zero_add]
    exact held.freed

end Moves

/-! ## All buffers -/

/-- The locks account for the buffers, which were allocated at `kbuf`. -/
structure Accounted (kbuf : Fin numSvcBufs → Addr)
    (svcBufs : Fin numSvcBufs → SvcBuf) (log : List Event)
    (callback : List CallbackOp) (holder : Option (Fin numSvcBufs)) :
    Prop where
  held : ∀ i, Held (kbuf i) (svcBufs i) log callback (holder == some i)
  orderly : Orderly log

section Moves

variable {kbuf : Fin numSvcBufs → Addr} {svcBufs : Fin numSvcBufs → SvcBuf}
  {log : List Event} {callback : List CallbackOp} {i : Fin numSvcBufs}
  {holder : Option (Fin numSvcBufs)}

theorem holder_other {j : Fin numSvcBufs} (other : j ≠ i) :
    (some i == some j) = ((none : Option (Fin numSvcBufs)) == some j) := by
  rw [beq_false_of_ne (Option.some_injective _ |>.ne other.symm)]
  rfl

theorem Accounted.working
    (accounted : Accounted kbuf svcBufs log callback (some i)) :
    Held (kbuf i) (svcBufs i) log callback true := by
  have held := accounted.held i
  rwa [beq_self_eq_true] at held

theorem Accounted.take
    (accounted : Accounted kbuf svcBufs log callback none)
    (unlocked : (svcBufs i).lock = false) :
    Accounted kbuf
      (Function.update svcBufs i { svcBufs i with lock := true }) log callback
      (some i) where
  held := by
    refine (Function.forall_update_iff svcBufs fun j svcBuf =>
      Held (kbuf j) svcBuf log callback (some i == some j)).mpr ⟨?_, ?_⟩
    · rw [beq_self_eq_true]
      exact (accounted.held i).take unlocked
    · intro j other
      rw [holder_other other]
      exact accounted.held j
  orderly := accounted.orderly

theorem Accounted.release
    (accounted : Accounted kbuf svcBufs log callback (some i)) :
    Accounted kbuf
      (Function.update svcBufs i { svcBufs i with lock := false }) log callback
      none where
  held := by
    refine (Function.forall_update_iff svcBufs fun j svcBuf =>
      Held (kbuf j) svcBuf log callback (none == some j)).mpr ⟨?_, ?_⟩
    · exact accounted.working.release
    · intro j other
      rw [← holder_other other]
      exact accounted.held j
  orderly := accounted.orderly

theorem Accounted.filled
    (accounted : Accounted kbuf svcBufs log callback (some i)) :
    Accounted kbuf svcBufs (.filled (kbuf i) :: log) callback (some i) where
  held j := (accounted.held j).filled
  orderly := ⟨accounted.working.working.1, accounted.orderly⟩

theorem Accounted.submitted (distinct : Function.Injective kbuf)
    (accounted : Accounted kbuf svcBufs log callback (some i))
    (payload : List UInt8) :
    Accounted kbuf svcBufs (.submitted (kbuf i) payload :: log) callback
      none where
  held j := by
    rcases eq_or_ne j i with rfl | other
    · exact accounted.working.submitted payload
    · have held := accounted.held j
      rw [holder_other other] at held
      exact held.submitted_other (distinct.ne other.symm) payload
  orderly := accounted.orderly

theorem Accounted.free (distinct : Function.Injective kbuf)
    (accounted : Accounted kbuf svcBufs log callback (some i)) :
    Accounted kbuf
      (Function.update svcBufs i { svcBufs i with buf := none })
      (.freed (kbuf i) :: log) callback none where
  held := by
    refine (Function.forall_update_iff svcBufs fun j svcBuf =>
      Held (kbuf j) svcBuf (.freed (kbuf i) :: log) callback
        (none == some j)).mpr ⟨?_, ?_⟩
    · exact accounted.working.free
    · intro j other
      have held := accounted.held j
      rw [holder_other other] at held
      exact held.free_other (distinct.ne other.symm)
  orderly := ⟨accounted.working.working.1, accounted.orderly⟩

theorem orderly_returns {returns : List Addr} (orderly : Orderly log) :
    Orderly (returns.map .returned ++ log) := by
  induction returns with
  | nil => exact orderly
  | cons back returns ih => exact ih

theorem Accounted.receive
    (accounted : Accounted kbuf svcBufs log [] holder) {data : CbData}
    (once : data.returns.Nodup)
    (owns : ∀ back ∈ data.returns, owned back log = true) :
    Accounted kbuf svcBufs (data.returns.map .returned ++ log)
      (s10ReceiveCallback data) holder where
  held j := (accounted.held j).receive once owns
  orderly := orderly_returns accounted.orderly

/-- An access which unlocks no buffer. -/
theorem Accounted.callback_other {op : CallbackOp}
    (accounted : Accounted kbuf svcBufs log (op :: callback) holder)
    (differs : ∀ i, op ≠ .unlockBufs (some (kbuf i))) :
    Accounted kbuf svcBufs log callback holder where
  held j := (accounted.held j).callback_other (differs j)
  orderly := accounted.orderly

theorem Accounted.unlock (distinct : Function.Injective kbuf)
    (accounted : Accounted kbuf svcBufs log
      (.unlockBufs (some (kbuf i)) :: callback) holder) :
    Accounted kbuf
      (Function.update svcBufs i { svcBufs i with lock := false }) log callback
      holder where
  held := by
    refine (Function.forall_update_iff svcBufs fun j svcBuf =>
      Held (kbuf j) svcBuf log callback (holder == some j)).mpr ⟨?_, ?_⟩
    · exact (accounted.held i).unlock
    · intro j other
      refine (accounted.held j).callback_other fun same => ?_
      have address := Option.some.inj (CallbackOp.unlockBufs.inj same)
      exact other (distinct address).symm
  orderly := accounted.orderly

end Moves

/-- A callback leaves alone what it does not share. -/
structure SameCall (transfer next : Transfer) : Prop where
  stage : next.stage = transfer.stage
  data : next.data = transfer.data
  ret : next.ret = transfer.ret
  fragments : next.fragments = transfer.fragments
  call : next.call = transfer.call
  memory : next.memory = transfer.memory
  log : next.log = transfer.log
  bufs : ∀ i, (next.svcBufs i).buf = (transfer.svcBufs i).buf

theorem setLock_bufs (transfer : Transfer) (i : Fin numSvcBufs) (lock : Bool)
    (j : Fin numSvcBufs) :
    ((transfer.setLock i lock).svcBufs j).buf = (transfer.svcBufs j).buf := by
  rw [Transfer.setLock]
  dsimp only
  rcases eq_or_ne j i with rfl | other
  · rw [Function.update_self]
  · rw [Function.update_of_ne other]

theorem callbackOp_same (op : CallbackOp) (transfer : Transfer) :
    SameCall transfer (callbackOp op transfer) := by
  cases op with
  | setBit | complete => exact ⟨rfl, rfl, rfl, rfl, rfl, rfl, rfl, fun _ => rfl⟩
  | unlockBufs kaddr =>
      cases kaddr with
      | none => exact ⟨rfl, rfl, rfl, rfl, rfl, rfl, rfl, fun _ => rfl⟩
      | some kaddr =>
          rw [callbackOp]
          split
          · exact ⟨rfl, rfl, rfl, rfl, rfl, rfl, rfl, fun _ => rfl⟩
          · exact ⟨rfl, rfl, rfl, rfl, rfl, rfl, rfl, setLock_bufs _ _ _⟩

theorem Accounted.callbackOp {kbuf : Fin numSvcBufs → Addr}
    (distinct : Function.Injective kbuf) {transfer : Transfer}
    {op : CallbackOp} {ops : List CallbackOp}
    {holder : Option (Fin numSvcBufs)}
    (accounted : Accounted kbuf transfer.svcBufs transfer.log (op :: ops)
      holder) :
    Accounted kbuf (callbackOp op transfer).svcBufs transfer.log ops
      holder := by
  cases op with
  | setBit | complete => exact accounted.callback_other fun _ => nofun
  | unlockBufs kaddr =>
      cases kaddr with
      | none =>
          refine accounted.callback_other fun _ same => ?_
          exact nomatch CallbackOp.unlockBufs.inj same
      | some kaddr =>
          rw [Stratix10.callbackOp]
          split
          case h_1 unknown =>
            refine accounted.callback_other fun i same => ?_
            -- the buffer is there, so it would have been found
            have address := Option.some.inj (CallbackOp.unlockBufs.inj same)
            subst address
            have buf := (accounted.held i).pending_buf
            have differs := List.find?_eq_none.mp unknown i (List.mem_finRange i)
            exact differs (decide_eq_true buf)
          case h_2 i found =>
            have matched := List.find?_some found
            have buf := of_decide_eq_true matched
            have address := (accounted.held i).address kaddr buf
            subst address
            exact accounted.unlock distinct

/-! ## Which steps there are -/

/-- What an action leads to. -/
inductive Moves (transfer : Transfer) : Action → Transfer → Prop where
  | write {answer : Option Errno} {next : Transfer}
      (written : s10OpsWrite answer transfer = some next) :
      Moves transfer (.write answer) next
  | receive {data : CbData} (idle : transfer.callback = [])
      (once : data.returns.Nodup)
      (owns : ∀ back ∈ data.returns, owned back transfer.log = true) :
      Moves transfer (.receive data)
        { transfer with
          callback := s10ReceiveCallback data
          log := data.returns.map .returned ++ transfer.log }
  | callback {op : CallbackOp} {ops : List CallbackOp}
      (pending : transfer.callback = op :: ops) :
      Moves transfer .callback
        { callbackOp op transfer with callback := ops }
  | nextFragment {fragment : List UInt8} {fragments : List (List UInt8)}
      (stage : transfer.stage = .returned) (ret : transfer.ret = none)
      (more : transfer.fragments = fragment :: fragments) :
      Moves transfer .nextFragment
        { transfer with
          stage := .head
          data := fragment
          fragments := fragments
          call := transfer.call + 1 }

theorem Performs.moves {transfer next : Transfer} {action : Action}
    (performs : Performs transfer action next) :
    Moves transfer action next := by
  unfold Performs perform at performs
  cases action with
  | write answer => exact .write performs
  | receive data =>
      dsimp only at performs
      split at performs
      case isTrue allowed =>
        cases performs
        exact .receive allowed.1 allowed.2.1 allowed.2.2
      case isFalse => exact nomatch performs
  | callback =>
      dsimp only at performs
      split at performs
      case h_1 => exact nomatch performs
      case h_2 op ops pending =>
        cases performs
        exact .callback pending
  | nextFragment =>
      dsimp only at performs
      split at performs
      case h_1 fragment fragments stage ret more =>
        cases performs
        exact .nextFragment stage ret more
      case h_2 => exact nomatch performs

end LinuxDfl.Fpga.Stratix10
