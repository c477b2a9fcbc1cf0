import LinuxDfl.Fpga.Stratix10Buffers
import LinuxDfl.Lib.Transition

/-!
# Handing buffers over to the service layer

In any order of callbacks, what the service layer is sent is the image from
its start on, and it keeps what it is sent until it returns it.  A call which
succeeds has sent all, and has got back and freed every buffer.
-/

namespace LinuxDfl.Fpga.Stratix10

open LinuxDfl.Kernel
open LinuxDfl.Lib.Transition

/-! ## What holds at each stage -/

def Transfer.bufs (transfer : Transfer) (i : Fin numSvcBufs) : Option Addr :=
  (transfer.svcBufs i).buf

/-- The image is sent, and the buffers are freed. -/
structure Finished (bufs : Fin numSvcBufs → Option Addr) (data : List UInt8) :
    Prop where
  data : data = []
  bufs : ∀ i, bufs i = none

/-- A loop over the buffers has found as many of them freed as it says. -/
def Counted (bufs : Fin numSvcBufs → Option Addr)
    (left : List (Fin numSvcBufs)) (numFree : Nat) : Prop :=
  ∃ passed, List.finRange numSvcBufs = passed ++ left ∧
    numFree ≤ passed.countP fun i => (bufs i).isNone

/-- Within the loop all is sent; behind it, all is done or there is an error. -/
def Settled (bufs : Fin numSvcBufs → Option Addr) (data : List UInt8)
    (ret : Option Errno) : Bool → Prop
  | false => data = []
  | true => ret = none → Finished bufs data

/-- What holds when the call is about to do the step of a stage. -/
def AtStage (kbuf : Fin numSvcBufs → Addr)
    (bufs : Fin numSvcBufs → Option Addr) (data : List UInt8)
    (ret : Option Errno) (memory : Addr → List UInt8) : Stage → Prop
  | .lock _ | .fill _ => data ≠ []
  | .send i svcBuf xferSz =>
      svcBuf = kbuf i ∧ xferSz ≠ 0 ∧ data ≠ [] ∧
        (memory svcBuf).take xferSz = data.take xferSz
  | .free last left numFree =>
      Counted bufs left numFree ∧ Settled bufs data ret last
  | .freeMemory last i svcBuf left numFree =>
      svcBuf = kbuf i ∧ Counted bufs (i :: left) numFree ∧
        Settled bufs data ret last
  | .claim => data = []
  | .returned => Settled bufs data ret true
  | .faulted => False
  | _ => True

theorem Counted.start (bufs : Fin numSvcBufs → Option Addr) :
    Counted bufs (List.finRange numSvcBufs) 0 :=
  ⟨[], rfl, Nat.zero_le _⟩

/-- The next buffer has been freed. -/
theorem Counted.next_none {bufs : Fin numSvcBufs → Option Addr}
    {i : Fin numSvcBufs} {left : List (Fin numSvcBufs)} {numFree : Nat}
    (counted : Counted bufs (i :: left) numFree) (none : bufs i = none) :
    Counted bufs left (numFree + 1) := by
  obtain ⟨passed, all, most⟩ := counted
  refine ⟨passed ++ [i], by rw [all, List.append_assoc]; rfl, ?_⟩
  rw [List.countP_append, List.countP_singleton, none]
  exact Nat.add_le_add_right most 1

/-- The next buffer is in use. -/
theorem Counted.next {bufs : Fin numSvcBufs → Option Addr}
    {i : Fin numSvcBufs} {left : List (Fin numSvcBufs)} {numFree : Nat}
    (counted : Counted bufs (i :: left) numFree) :
    Counted bufs left numFree := by
  obtain ⟨passed, all, most⟩ := counted
  refine ⟨passed ++ [i], by rw [all, List.append_assoc]; rfl, ?_⟩
  rw [List.countP_append]
  exact Nat.le_add_right_of_le most

/-- Freeing a buffer takes away from none. -/
theorem Counted.mono {bufs more : Fin numSvcBufs → Option Addr}
    {left : List (Fin numSvcBufs)} {numFree : Nat}
    (counted : Counted bufs left numFree)
    (kept : ∀ i, bufs i = none → more i = none) :
    Counted more left numFree := by
  obtain ⟨passed, all, most⟩ := counted
  refine ⟨passed, all, most.trans (List.countP_mono_left fun i _ none => ?_)⟩
  rw [Option.isNone_iff_eq_none] at none ⊢
  exact kept i none

theorem Settled.mono {bufs more : Fin numSvcBufs → Option Addr}
    {data : List UInt8} {ret : Option Errno} {last : Bool}
    (settled : Settled bufs data ret last)
    (kept : ∀ i, bufs i = none → more i = none) :
    Settled more data ret last := by
  cases last with
  | false => exact settled
  | true =>
      intro none
      obtain ⟨all, freed⟩ := settled none
      exact ⟨all, fun i => kept i (freed i)⟩

/-- All buffers are freed when the count says so. -/
theorem all_none_of_countP {bufs : Fin numSvcBufs → Option Addr}
    (all : numSvcBufs ≤
      (List.finRange numSvcBufs).countP fun i => (bufs i).isNone)
    (i : Fin numSvcBufs) : bufs i = none := by
  have most := List.countP_le_length
    (p := fun i => (bufs i).isNone) (l := List.finRange numSvcBufs)
  rw [List.length_finRange] at most
  have exact' := Nat.le_antisymm most all
  have every := List.countP_eq_length.mp
    (exact'.trans (List.length_finRange).symm)
  exact Option.isNone_iff_eq_none.mp (every i (List.mem_finRange i))

theorem Counted.all_none {bufs : Fin numSvcBufs → Option Addr}
    (counted : Counted bufs [] numSvcBufs) (i : Fin numSvcBufs) :
    bufs i = none := by
  obtain ⟨passed, all, most⟩ := counted
  rw [List.append_nil] at all
  rw [← all] at most
  exact all_none_of_countP most i

/-- What holds of a call, and of those which the manager has still to make. -/
structure Fits (kbuf : Fin numSvcBufs → Addr) (image : List UInt8)
    (transfer : Transfer) : Prop where
  accounted : Accounted kbuf transfer.svcBufs transfer.log transfer.callback
    transfer.stage.holder
  sent : payloads transfer.log ++ transfer.data ++ transfer.fragments.flatten =
    image
  atStage : AtStage kbuf transfer.bufs transfer.data transfer.ret
    transfer.memory transfer.stage

/-! ## Steps of the call -/

theorem bufs_setLock (transfer : Transfer) (i : Fin numSvcBufs) (lock : Bool) :
    (transfer.setLock i lock).bufs = transfer.bufs :=
  funext (setLock_bufs transfer i lock)

theorem bufs_free (transfer : Transfer) (i : Fin numSvcBufs) :
    (fun j => (Function.update transfer.svcBufs i
      { transfer.svcBufs i with buf := none } j).buf) =
      Function.update transfer.bufs i none :=
  Function.comp_update SvcBuf.buf transfer.svcBufs i _

theorem finished_of_not_head {transfer : Transfer}
    (ended : ¬ (transfer.data ≠ [] ∨
      s10FreeBufferCount transfer.svcBufs ≠ numSvcBufs)) :
    Finished transfer.bufs transfer.data := by
  rw [not_or, not_not, not_not] at ended
  exact ⟨ended.1, all_none_of_countP ended.2.ge⟩

/-- The size of what is sent next. -/
theorem xferSz_ne_zero {data : List UInt8} (more : data ≠ []) :
    (if data.length < svcBufSize then data.length else svcBufSize) ≠ 0 := by
  split
  · exact fun none => more (List.length_eq_zero_iff.mp none)
  · exact (by decide : svcBufSize ≠ 0)

theorem xferSz_le (data : List UInt8) :
    (if data.length < svcBufSize then data.length else svcBufSize) ≤
      data.length := by
  split
  · exact le_rfl
  · exact Nat.le_of_not_lt ‹_›

/-- What was copied to a buffer is what is sent of it. -/
theorem take_memcpy (transfer : Transfer) (addr : Addr) {size : Nat}
    (room : size ≤ transfer.data.length) :
    ((transfer.memcpy addr (transfer.data.take size)).memory addr).take size =
      transfer.data.take size := by
  rw [Transfer.memcpy]
  dsimp only
  rw [Function.update_self]
  exact List.take_left' (List.length_take_of_le room)

section Steps

variable {kbuf : Fin numSvcBufs → Addr} {image : List UInt8}
  {transfer next : Transfer} {answer : Option Errno}

theorem Fits.write (distinct : Function.Injective kbuf)
    (fits : Fits kbuf image transfer)
    (written : s10OpsWrite answer transfer = some next) :
    Fits kbuf image next := by
  obtain ⟨accounted, sent, atStage⟩ := fits
  unfold s10OpsWrite at written
  cases stage : transfer.stage <;> rw [stage] at accounted atStage written
  case head =>
    dsimp only at written
    split at written <;> cases written
    case isTrue => exact ⟨accounted, sent, trivial⟩
    case isFalse ended =>
      exact ⟨accounted, sent, Counted.start _,
        fun _ => finished_of_not_head ended⟩
  case reinit =>
    dsimp only at written
    split at written <;> cases written
    case isTrue more => exact ⟨accounted, sent, more⟩
    case isFalse all =>
      exact ⟨accounted, sent, Counted.start _, not_not.mp all⟩
  case lock left =>
    cases left with
    | nil =>
        cases written
        exact ⟨accounted, sent, trivial⟩
    | cons i left =>
        dsimp only at written
        split at written
        case isTrue =>
          cases written
          exact ⟨accounted, sent, atStage⟩
        case isFalse unlocked =>
          cases written
          rw [Bool.not_eq_true] at unlocked
          exact ⟨accounted.take unlocked, sent, atStage⟩
  case fill i =>
    dsimp only at written
    have buf := accounted.working.working.2.1
    rw [buf] at written
    cases written
    exact ⟨accounted.filled, sent, rfl, xferSz_ne_zero atStage, atStage,
      take_memcpy transfer (kbuf i) (xferSz_le transfer.data)⟩
  case send i svcBuf xferSz =>
    obtain ⟨rfl, -, -, payload⟩ := atStage
    cases answer with
    | some =>
        cases written
        exact ⟨accounted, sent, trivial⟩
    | none =>
        cases written
        refine ⟨accounted.submitted distinct _, ?_, trivial⟩
        rw [← sent]
        dsimp only [Transfer.submit]
        rw [payloads, payload, List.append_assoc _ (List.take _ _),
          List.take_append_drop]
  case unlock i =>
    cases written
    exact ⟨accounted.release, sent, trivial⟩
  case free last left numFree =>
    obtain ⟨counted, settled⟩ := atStage
    cases left with
    | nil =>
        cases last with
        | true =>
            cases written
            exact ⟨accounted, sent, settled⟩
        | false =>
            dsimp only at written
            split at written
            case isTrue => contradiction
            case isFalse =>
              split at written
              case isTrue all =>
                cases written
                rw [all] at counted
                exact ⟨accounted, sent, fun _ => ⟨settled, counted.all_none⟩⟩
              case isFalse =>
                cases written
                exact ⟨accounted, sent, settled⟩
    | cons i left =>
        dsimp only at written
        split at written
        case h_1 none =>
          cases written
          exact ⟨accounted, sent, counted.next_none none, settled⟩
        case h_2 svcBuf buf =>
          split at written
          case isTrue =>
            cases written
            exact ⟨accounted, sent, counted.next, settled⟩
          case isFalse unlocked =>
            cases written
            rw [Bool.not_eq_true] at unlocked
            have same := bufs_setLock transfer i true
            have address := (accounted.held i).address svcBuf buf
            rw [← same] at counted settled
            exact ⟨accounted.take unlocked, sent, address, counted, settled⟩
  case freeMemory last i svcBuf left numFree =>
    cases written
    obtain ⟨rfl, counted, settled⟩ := atStage
    have freed := bufs_free transfer i
    have kept (j : Fin numSvcBufs) (gone : transfer.bufs j = none) :
        Function.update transfer.bufs i none j = none := by
      rcases eq_or_ne j i with rfl | other
      · exact Function.update_self ..
      · rw [Function.update_of_ne other, gone]
    have further := (counted.mono kept).next_none (Function.update_self ..)
    have settles := settled.mono kept
    rw [← freed] at further settles
    exact ⟨accounted.free distinct, sent, further, settles⟩
  case claim =>
    cases answer with
    | some err =>
        cases written
        exact ⟨accounted, sent, Counted.start _, nofun⟩
    | none =>
        cases written
        exact ⟨accounted, sent, trivial⟩
  case readStatus =>
    dsimp only at written
    split at written <;> cases written
    all_goals exact ⟨accounted, sent, trivial⟩
  case wait =>
    dsimp only at written
    split at written <;> cases written
    all_goals exact ⟨accounted, sent, trivial⟩
  case testDone waitStatus =>
    dsimp only at written
    split at written <;> cases written
    all_goals exact ⟨accounted, sent, trivial⟩
  case testSubmitted waitStatus =>
    dsimp only at written
    split at written <;> cases written
    all_goals exact ⟨accounted, sent, trivial⟩
  case testError waitStatus =>
    dsimp only at written
    split at written
    case isTrue =>
      cases written
      exact ⟨accounted, sent, Counted.start _, nofun⟩
    case isFalse =>
      split at written <;> cases written
      case isTrue => exact ⟨accounted, sent, trivial⟩
      case isFalse => exact ⟨accounted, sent, Counted.start _, nofun⟩
  case returned | faulted => exact nomatch written

/-! ## Other steps -/

/-- A call knows neither what it is part of nor what follows. -/
theorem s10OpsWrite_same (written : s10OpsWrite answer transfer = some next) :
    next.fragments = transfer.fragments ∧ next.call = transfer.call ∧
      next.callback = transfer.callback := by
  unfold s10OpsWrite at written
  dsimp only at written
  -- this is so in each branch
  repeat' split at written
  all_goals cases written
  all_goals exact ⟨rfl, rfl, rfl⟩

theorem payloads_returns (returns : List Addr) (log : List Event) :
    payloads (returns.map .returned ++ log) = payloads log := by
  induction returns with
  | nil => rfl
  | cons back returns ih => exact ih

theorem Fits.receive (fits : Fits kbuf image transfer) {data : CbData}
    (idle : transfer.callback = []) (once : data.returns.Nodup)
    (owns : ∀ back ∈ data.returns, owned back transfer.log = true) :
    Fits kbuf image { transfer with
      callback := s10ReceiveCallback data
      log := data.returns.map .returned ++ transfer.log } where
  accounted := by
    have accounted := fits.accounted
    rw [idle] at accounted
    exact accounted.receive once owns
  sent := by
    dsimp only
    rw [payloads_returns]
    exact fits.sent
  atStage := fits.atStage

theorem Fits.callback (distinct : Function.Injective kbuf)
    (fits : Fits kbuf image transfer) {op : CallbackOp}
    {ops : List CallbackOp} (callback : transfer.callback = op :: ops) :
    Fits kbuf image { callbackOp op transfer with callback := ops } := by
  obtain ⟨stage, data, ret, fragments, -, memory, log, bufs⟩ :=
    callbackOp_same op transfer
  obtain ⟨accounted, sent, atStage⟩ := fits
  rw [callback] at accounted
  have further := accounted.callbackOp distinct
  constructor
  · dsimp only
    rw [log, stage]
    exact further
  · dsimp only
    rw [log, data, fragments]
    exact sent
  · have same : transfer.bufs = (callbackOp op transfer).bufs :=
      funext fun i => (bufs i).symm
    rw [← data, ← ret, ← memory, ← stage, same] at atStage
    exact atStage

theorem Fits.nextFragment (fits : Fits kbuf image transfer)
    {fragment : List UInt8} {fragments : List (List UInt8)}
    (stage : transfer.stage = .returned) (ret : transfer.ret = none)
    (more : transfer.fragments = fragment :: fragments) :
    Fits kbuf image { transfer with
      stage := .head
      data := fragment
      fragments := fragments
      call := transfer.call + 1 } := by
  obtain ⟨accounted, sent, atStage⟩ := fits
  rw [stage] at accounted atStage
  refine ⟨accounted, ?_, trivial⟩
  rw [← sent, (atStage ret).data, more, List.append_nil, List.flatten_cons,
    List.append_assoc]

theorem Fits.perform {action : Action} (distinct : Function.Injective kbuf)
    (fits : Fits kbuf image transfer)
    (performs : Performs transfer action next) : Fits kbuf image next := by
  cases performs.moves with
  | write written => exact fits.write distinct written
  | receive idle once owns => exact fits.receive idle once owns
  | callback pending => exact fits.callback distinct pending
  | nextFragment stage ret more => exact fits.nextFragment stage ret more

end Steps

/-! ## Preparing -/

theorem allocateBufs_all {kbufs : Fin numSvcBufs → Option Addr}
    {left : List (Fin numSvcBufs)} {svcBufs last : Fin numSvcBufs → SvcBuf}
    (all : allocateBufs kbufs left svcBufs = (last, true)) :
    (∀ i ∈ left, ∃ kbuf, kbufs i = some kbuf ∧
        last i = { buf := some kbuf, lock := false }) ∧
      ∀ i, i ∉ left → last i = svcBufs i := by
  induction left generalizing svcBufs with
  | nil =>
      cases all
      exact ⟨fun _ member => (List.not_mem_nil member).elim, fun _ _ => rfl⟩
  | cons i left ih =>
      rw [allocateBufs] at all
      split at all
      case h_1 => exact nomatch (Prod.mk.inj all).2
      case h_2 kbuf allocated =>
        obtain ⟨ready, others⟩ := ih all
        constructor
        · intro j member
          by_cases again : j ∈ left
          · exact ready j again
          · have same := (List.mem_cons.mp member).resolve_right again
            subst same
            refine ⟨kbuf, allocated, ?_⟩
            rw [others j again, Function.update_self]
        · intro j other
          rw [List.mem_cons, not_or] at other
          rw [others j other.2, Function.update_of_ne other.1]

/-- A preparation which succeeds leaves all buffers unlocked. -/
theorem s10OpsWriteInit_ready {env : InitEnv} {priv ready : Priv}
    (prepared : s10OpsWriteInit env priv = (ready, none))
    (i : Fin numSvcBufs) :
    ∃ kbuf, env.kbufs i = some kbuf ∧
      ready.svcBufs i = { buf := some kbuf, lock := false } := by
  unfold s10OpsWriteInit at prepared
  cases answer : env.answer <;> rw [answer] at prepared <;>
    dsimp only at prepared
  case some => exact nomatch (Prod.mk.inj prepared).2
  case none =>
    split at prepared
    case isTrue => exact nomatch (Prod.mk.inj prepared).2
    case isFalse =>
      split at prepared
      case isTrue => exact nomatch (Prod.mk.inj prepared).2
      case isFalse =>
        split at prepared
        case h_1 svcBufs all =>
          obtain ⟨rfl, -⟩ := Prod.mk.inj prepared
          exact (allocateBufs_all all).1 i (List.mem_finRange i)
        case h_2 => exact nomatch (Prod.mk.inj prepared).2

/-- Memory is handed out once. -/
def InitEnv.Distinct (env : InitEnv) : Prop :=
  ∀ i j addr, env.kbufs i = some addr → env.kbufs j = some addr → i = j

theorem exists_fits_start {env : InitEnv} {priv ready : Priv}
    (prepared : s10OpsWriteInit env priv = (ready, none))
    (distinct : env.Distinct) (memory : Addr → List UInt8)
    (fragment : List UInt8) (fragments : List (List UInt8)) :
    ∃ kbuf : Fin numSvcBufs → Addr, Function.Injective kbuf ∧
      (∀ i, env.kbufs i = some (kbuf i)) ∧
        Fits kbuf (fragment :: fragments).flatten
          (startWrite ready memory fragment fragments) := by
  choose kbuf allocated unlocked using s10OpsWriteInit_ready prepared
  refine ⟨kbuf, ?_, allocated, ⟨fun i => ?_, trivial⟩, rfl, trivial⟩
  · intro i j same
    exact distinct i j (kbuf j) (same ▸ allocated i) (allocated j)
  · have buf := unlocked i
    dsimp only [startWrite]
    rw [buf]
    refine ⟨rfl, fun kaddr same => ?_, rfl⟩
    exact (Option.some.inj same).symm

/-! ## One call -/

/-- What has been sent and freed is right, and all of it is when all is well. -/
structure HandedOver (kbufs : Fin numSvcBufs → Option Addr)
    (image : List UInt8) (transfer : Transfer) : Prop where
  orderly : Orderly transfer.log
  sent : payloads transfer.log <+: image
  all : transfer.stage = .returned → transfer.ret = none →
    payloads transfer.log = image ∧
      ∀ i addr, kbufs i = some addr →
        owned addr transfer.log = false ∧
          transfer.log.count (.freed addr) = 1

theorem Fits.handedOver {kbuf : Fin numSvcBufs → Addr} {image : List UInt8}
    {transfer : Transfer} {kbufs : Fin numSvcBufs → Option Addr}
    (allocated : ∀ i, kbufs i = some (kbuf i))
    (fits : Fits kbuf image transfer) (alone : transfer.fragments = []) :
    HandedOver kbufs image transfer := by
  obtain ⟨accounted, sent, atStage⟩ := fits
  rw [alone, List.flatten_nil, List.append_nil] at sent
  refine ⟨accounted.orderly, ⟨_, sent⟩, fun stage none => ?_⟩
  rw [stage] at atStage
  obtain ⟨data, freed⟩ := atStage none
  rw [data, List.append_nil] at sent
  refine ⟨sent, fun i addr here => ?_⟩
  rw [allocated i] at here
  cases here
  have held := accounted.held i
  have gone : (transfer.svcBufs i).buf = Option.none := freed i
  have once := held.freed
  have lock := held.held
  have most := Bool.toNat_le (transfer.svcBufs i).lock
  rw [gone, Option.isNone_none, Bool.toNat_true] at once lock
  refine ⟨?_, once⟩
  rw [← Bool.toNat_eq_zero]
  omega

theorem alone_perform {transfer next : Transfer} {action : Action}
    (alone : transfer.fragments = [])
    (performs : Performs transfer action next) : next.fragments = [] := by
  cases performs.moves with
  | write written => exact (s10OpsWrite_same written).1.trans alone
  | receive => exact alone
  | @callback op => exact (callbackOp_same op transfer).fragments.trans alone
  | nextFragment _ _ more => exact nomatch more.symm.trans alone

/--
In any order of callbacks, a call hands the image over from its start on.  It
touches no buffer which the service layer owns, and when it succeeds it has
sent all, and has each buffer back and freed once.
-/
theorem s10OpsWrite_handsOver {env : InitEnv} {priv ready : Priv}
    (prepared : s10OpsWriteInit env priv = (ready, none))
    (distinct : env.Distinct) (memory : Addr → List UInt8)
    (image : List UInt8) {path : List (Action × Transfer)}
    (isPath : IsPath Performs (startWrite ready memory image []) path) :
    Throughout (HandedOver env.kbufs image)
      (startWrite ready memory image []) path := by
  obtain ⟨kbuf, injective, allocated, fits⟩ :=
    exists_fits_start prepared distinct memory image []
  rw [List.flatten_singleton] at fits
  have preserved (source : Transfer) (action : Action) (target : Transfer)
      (holds : Fits kbuf image source ∧ source.fragments = [])
      (performs : Performs source action target) :
      Fits kbuf image target ∧ target.fragments = [] :=
    ⟨holds.1.perform injective performs, alone_perform holds.2 performs⟩
  exact (throughout_of_invariant preserved isPath ⟨fits, rfl⟩).mono
    fun _ holds => holds.1.handedOver allocated holds.2

/-! ## Two bytes -/

/-- The request is granted, and four buffers are allocated. -/
def granted : InitEnv where
  answer := none
  timedOut := false
  status := [.ok]
  completion := 0
  kbufs i := some (i.val + 1)

/-- The driver before it prepares anything. -/
def unprepared : Priv where
  svcBufs _ := { buf := none, lock := false }
  status := []
  completion := 0

/-- The driver when it is prepared. -/
def prepared : Priv :=
  (s10OpsWriteInit granted unprepared).1

theorem granted_distinct : granted.Distinct := by
  intro i j addr first second
  have same := Nat.succ_injective (Option.some.inj (first.trans second.symm))
  exact Fin.ext same

/-- The call goes on, and the service layer takes what it is sent. -/
def goOn : Action := .write none

/-- The message is taken first, and its buffer is returned with the claim. -/
def takenThenReturned : List Action :=
  List.replicate 5 goOn ++
    [.receive ⟨[.bufferSubmitted], none, none, none⟩, .callback, .callback] ++
    List.replicate 14 goOn ++
    [.receive ⟨[.bufferDone], some 1, none, none⟩, .callback, .callback,
      .callback, .callback, .callback] ++
    List.replicate 10 goOn

/-- A call which is about to send two bytes. -/
def twoBytes : Transfer :=
  startWrite prepared (fun _ => []) [0x11, 0x22] []

theorem twoBytes_handedOver :
    Throughout (HandedOver granted.kbufs [0x11, 0x22]) twoBytes
        (pathOf (orSame perform) twoBytes takenThenReturned) ∧
      (takenThenReturned.foldl (orSame perform) twoBytes).stage = .returned ∧
        (takenThenReturned.foldl (orSame perform) twoBytes).ret = none :=
  ⟨s10OpsWrite_handsOver (Prod.ext rfl (by decide)) granted_distinct _ _
      (isPath_of_allTaken (by decide)),
    by decide, by decide⟩

end LinuxDfl.Fpga.Stratix10
