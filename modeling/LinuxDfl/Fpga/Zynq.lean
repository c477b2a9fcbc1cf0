import LinuxDfl.Kernel.Errno
import Mathlib.Data.List.Basic

/-!
# DMA of the Zynq manager

The manager hands an image to the hardware as a queue of DMA commands.  It
fills the queue once itself; from then on the interrupt handler does.  One
call of the `write_sg` operation is taken apart at its accesses to what it
shares with the handler and with the hardware; what is done under `dma_lock`
is one step.
-/

namespace LinuxDfl.Fpga.Zynq

open LinuxDfl.Kernel

/-! ## Registers -/

/-- `IXR_DMA_DONE_MASK` -/
def ixrDmaDoneMask : BitVec 32 := 1 <<< 13

/-- `IXR_D_P_DONE_MASK` -/
def ixrDPDoneMask : BitVec 32 := 1 <<< 12

/-- `IXR_ERROR_FLAGS_MASK` -/
def ixrErrorFlagsMask : BitVec 32 := 0x00F0C860

/-- `IXR_ALL_MASK` -/
def ixrAllMask : BitVec 32 := 0xF8F7F87F

/-- `DMA_INVALID_ADDRESS` -/
def dmaInvalidAddress : BitVec 32 := 0xFFFFFFFF

/-- `DMA_SRC_LAST_TRANSFER` -/
def dmaSrcLastTransfer : BitVec 32 := 1

/-! ## Scatter lists -/

/-- `struct scatterlist`, one chunk of an image, after it is mapped. -/
structure Scatterlist where
  offset : BitVec 32
  length : BitVec 32
  dmaAddress : BitVec 32
  dmaLength : BitVec 32
  deriving DecidableEq, Repr

/-- The check which `zynq_fpga_ops_write` makes of a chunk. -/
def Scatterlist.misaligned (sg : Scatterlist) : Bool :=
  sg.offset % 8 ≠ 0 || sg.length % 4 ≠ 0

/--
`struct sg_table`, with the number of elements which `dma_map_sg` returns.
Chunks may be merged, but are not moved within their pages.
-/
structure SgTable where
  sgl : List Scatterlist
  nelms : Nat
  nelms_le : nelms ≤ sgl.length
  aligned : (∀ sg ∈ sgl, sg.misaligned = false) →
    ∀ sg ∈ sgl.take nelms, sg.dmaAddress % 8 = 0

/-- What is written to the four DMA registers. -/
structure DmaCommand where
  srcAddr : BitVec 32
  dstAddr : BitVec 32
  srcLen : BitVec 32
  destLen : BitVec 32
  deriving DecidableEq, Repr

/-- The command has the last-transfer flag. -/
def DmaCommand.isLast (command : DmaCommand) : Bool :=
  command.srcAddr.getLsbD 0

/-- The command for a chunk. -/
def dmaCommand (sg : Scatterlist) (last : Bool) : DmaCommand where
  srcAddr := if last then sg.dmaAddress ||| dmaSrcLastTransfer
    else sg.dmaAddress
  dstAddr := dmaInvalidAddress
  srcLen := sg.dmaLength / 4
  destLen := 0

/-! ## The state -/

/-- What `zynq_fpga_ops_write` does next. -/
inductive Stage where
  | check
  | map
  | clock
  /-- `INT_STS` is cleared. -/
  | clear
  /-- `reinit_completion` -/
  | reinit
  /-- The first part under `dma_lock`. -/
  | first
  /-- `wait_for_completion_timeout` -/
  | wait
  /-- The second part under `dma_lock`. -/
  | stop (timedOut : Bool)
  | readStatus (timedOut : Bool)
  | clearStatus (timedOut : Bool) (intrStatus : BitVec 32)
  | judge (timedOut : Bool) (intrStatus : BitVec 32)
  /-- What is returned, and why it is reported. -/
  | returned (ret : Option Errno) (why : Option String)
  deriving DecidableEq, Repr

/-- What `zynq_fpga_isr` does next. -/
inductive IsrStage where
  /-- Nothing, or what it does under `dma_lock` when it is called. -/
  | enter
  /-- Interrupts are masked. -/
  | mask
  /-- `complete` -/
  | complete
  deriving DecidableEq, Repr

/-- `struct zynq_fpga_priv`, and the hardware. -/
structure Dma where
  stage : Stage
  isr : IsrStage
  dmaElm : Nat
  dmaNelms : Nat
  /-- The list from `cur_sg` on, which is empty for `NULL`. -/
  curSg : List Scatterlist
  /-- How often `dma_done` is completed and not waited for. -/
  dmaDone : Nat
  /-- `INT_STS_OFFSET` -/
  intSts : BitVec 32
  /-- `INT_MASK_OFFSET` -/
  intMask : BitVec 32
  /-- The commands of this call, the first one first. -/
  commands : List DmaCommand
  deriving DecidableEq, Repr

/-- `zynq_fpga_set_irq` -/
def Dma.setIrq (dma : Dma) (enable : BitVec 32) : Dma :=
  { dma with intMask := ~~~enable }

/-- A write to `INT_STS_OFFSET`, which clears the bits written. -/
def Dma.clearSts (dma : Dma) (bits : BitVec 32) : Dma :=
  { dma with intSts := dma.intSts &&& ~~~bits }

/-! ## Feeding the queue -/

/--
The loop of `zynq_step_dma`; `room` is how often the queue is read as not full
before it is read as full.
-/
def feedQueue : Nat → Dma → Dma
  | 0, dma => dma
  | room + 1, dma =>
      match dma.curSg with
      | [] => dma
      | sg :: rest =>
          if dma.dmaElm + 1 = dma.dmaNelms then
            feedQueue room { dma with
              curSg := []
              commands := dma.commands ++ [dmaCommand sg true] }
          else
            feedQueue room { dma with
              curSg := rest
              dmaElm := dma.dmaElm + 1
              commands := dma.commands ++ [dmaCommand sg false] }

/-- `zynq_step_dma` -/
def zynqStepDma (room : Nat) (dma : Dma) : Dma :=
  let first := dma.dmaElm = 0
  let dma := feedQueue room dma
  if first ∧ dma.curSg ≠ [] then
    dma.setIrq (ixrDmaDoneMask ||| ixrErrorFlagsMask)
  else if dma.curSg = [] then
    dma.setIrq (ixrDPDoneMask ||| ixrErrorFlagsMask)
  else dma

/-! ## Steps -/

inductive Action where
  /-- The hardware sets bits of `INT_STS`. -/
  | raise (bits : BitVec 32)
  /-- The next step of `zynq_fpga_isr`, which may be called at any time. -/
  | isr (room : Nat)
  /-- The next step of `zynq_fpga_ops_write`, and what it meets. -/
  | write (clkEnable : Option Errno) (room : Nat) (timedOut : Bool)
  deriving DecidableEq, Repr

/-- The next step of `zynq_fpga_isr`. -/
def zynqFpgaIsr (room : Nat) (dma : Dma) : Dma :=
  match dma.isr with
  | .enter =>
      if dma.intSts &&& ixrErrorFlagsMask = 0 ∧
          dma.intSts &&& ixrDmaDoneMask ≠ 0 ∧ dma.curSg ≠ [] then
        zynqStepDma room (dma.clearSts ixrDmaDoneMask)
      else
        { dma with isr := .mask }
  | .mask => { dma.setIrq 0 with isr := .complete }
  | .complete => { dma with isr := .enter, dmaDone := dma.dmaDone + 1 }

/-- What `zynq_fpga_ops_write` makes of the status in the end. -/
def judge (timedOut : Bool) (intrStatus : BitVec 32)
    (curSg : List Scatterlist) : Stage :=
  if intrStatus &&& ixrErrorFlagsMask ≠ 0 then
    .returned (some .eio) (some "DMA reported error")
  else if curSg ≠ [] ∨ intrStatus &&& ixrDPDoneMask ≠ ixrDPDoneMask then
    if timedOut then .returned (some .eio) (some "DMA timed out")
    else .returned (some .eio) (some "DMA did not complete")
  else
    .returned none none

/-- The next step of `zynq_fpga_ops_write`, unless it waits or is over. -/
def zynqFpgaOpsWrite (table : SgTable) (clkEnable : Option Errno)
    (room : Nat) (timedOut : Bool) (dma : Dma) : Option Dma :=
  match dma.stage with
  | .check =>
      if table.sgl.any Scatterlist.misaligned then
        some { dma with stage := .returned (some .einval) none }
      else some { dma with stage := .map }
  | .map =>
      if table.nelms = 0 then
        some { dma with
          dmaNelms := 0, stage := .returned (some .enomem) none }
      else some { dma with dmaNelms := table.nelms, stage := .clock }
  | .clock =>
      match clkEnable with
      | some ret => some { dma with stage := .returned (some ret) none }
      | none => some { dma with stage := .clear }
  | .clear => some { dma.clearSts ixrAllMask with stage := .reinit }
  | .reinit => some { dma with dmaDone := 0, stage := .first }
  | .first =>
      some { zynqStepDma room { dma with dmaElm := 0, curSg := table.sgl } with
        stage := .wait }
  | .wait =>
      if timedOut then some { dma with stage := .stop true }
      else if dma.dmaDone = 0 then none
      else some { dma with
        dmaDone := dma.dmaDone - 1, stage := .stop false }
  | .stop timedOut =>
      some { dma.setIrq 0 with curSg := [], stage := .readStatus timedOut }
  | .readStatus timedOut =>
      some { dma with stage := .clearStatus timedOut dma.intSts }
  | .clearStatus timedOut intrStatus =>
      some { dma.clearSts ixrAllMask with stage := .judge timedOut intrStatus }
  | .judge timedOut intrStatus =>
      some { dma with stage := judge timedOut intrStatus dma.curSg }
  | .returned _ _ => none

/-- A command with the last-transfer flag has been issued. -/
def Dma.lastIssued (dma : Dma) : Bool :=
  dma.commands.any DmaCommand.isLast

/-- The step of an action, if it can be taken. -/
def perform (table : SgTable) (dma : Dma) : Action → Option Dma
  | .raise bits =>
      -- all is done only after the last transfer
      if bits &&& ixrDPDoneMask ≠ 0 ∧ dma.lastIssued = false then none
      else some { dma with intSts := dma.intSts ||| bits }
  | .isr room => some (zynqFpgaIsr room dma)
  | .write clkEnable room timedOut =>
      zynqFpgaOpsWrite table clkEnable room timedOut dma

def Performs (table : SgTable) (dma : Dma) (action : Action)
    (next : Dma) : Prop :=
  perform table dma action = some next

/--
A call is about to begin.  Nothing is known of the hardware, of earlier
completions or of an interrupt handler which is not done yet.
-/
structure Begins (dma : Dma) : Prop where
  stage : dma.stage = .check
  curSg : dma.curSg = []
  commands : dma.commands = []

end LinuxDfl.Fpga.Zynq
