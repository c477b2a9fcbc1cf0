import LinuxDfl.Kernel.Bitfield
import LinuxDfl.Lib.Transition
import LinuxDfl.Fpga.Region
import LinuxDfl.Port.SoftReset

/-!
# Partial reconfiguration of a port

The `DFL_FPGA_FME_PORT_PR` request of the FME: its checks, the image it
hands over, and the programming of the port's region.  The region has one
bridge, which disables and enables the port.
-/

namespace LinuxDfl.Fme

open LinuxDfl.Kernel
open LinuxDfl.Fpga
open LinuxDfl.Port

/-! ## The bridge of a port -/

/-- `struct fme_br_priv`: what the bridge has already looked up. -/
structure FmeBrPriv where
  portFdata : Bool
  portOps : Bool
  deriving DecidableEq, Repr

/-- What a bridge operation meets. -/
structure FmeBrEnv where
  /-- `dfl_fpga_cdev_find_port_data` finds the port. -/
  findPortData : Bool
  /-- `dfl_fpga_port_ops_get` finds operations with an `enable_set`. -/
  portOps : Bool
  /-- The acknowledgement bit of the port when polling ends. -/
  ack : Bool
  deriving DecidableEq, Repr

/-- A port, with the private data of the bridge in front of it. -/
structure FmePort where
  priv : FmeBrPriv
  port : AfuPort
  deriving DecidableEq, Repr

/-- `port_enable_set`, the `enable_set` of the port driver -/
def portEnableSet (ack : Bool) (enable : Bool) (port : AfuPort) :
    Option Errno × AfuPort :=
  if enable then afuPortEnable ack port else afuPortDisable ack port

/-- `fme_bridge_enable_set` -/
def fmeBridgeEnableSet (env : FmeBrEnv) (enable : Bool) (fmePort : FmePort) :
    Option Errno × FmePort :=
  if !(fmePort.priv.portFdata || env.findPortData) then
    (some .enodev, fmePort)
  else if !(fmePort.priv.portOps || env.portOps) then
    (some .enoent,
      { fmePort with priv := { fmePort.priv with portFdata := true } })
  else
    let set := portEnableSet env.ack enable fmePort.port
    (set.1, ⟨⟨true, true⟩, set.2⟩)

/-! ## The request -/

/-- What the operations of the manager driver answer. -/
structure LoadEnv where
  writeInit : Option Errno
  write : Option Errno
  writeComplete : Option Errno
  deriving DecidableEq, Repr

/-- `fme_mgr_ops`, by its answers -/
def fmeMgrOps (env : LoadEnv) : FpgaManagerOps Unit where
  initialHeaderSize := 0
  skipHeader := false
  parseHeader := none
  writeInit := some fun _ _ hw => (env.writeInit, hw)
  write := some fun _ hw => (env.write, hw)
  writeComplete := some fun _ hw => (env.writeComplete, hw)

/--
`fpga_mgr_load` of an image which is held in a buffer, by a driver with a
`write` operation.
-/
def fpgaMgrLoadBuf
    (mops : FpgaManagerOps Unit) (mgr : FpgaManager Unit) :
    Option FpgaImageInfo →
      Option Errno × FpgaManager Unit × Option FpgaImageInfo
  | none => (some .einval, mgr, none)
  | some info =>
      let info := { info with headerSize := mops.initialHeaderSize }
      if info.buf.length = 0 then
        (some .einval, mgr, some info)
      else
        let loaded := fpgaMgrBufLoadMapped mops mgr info info.buf
        (loaded.1, loaded.2.1, some loaded.2.2)

/-- `struct dfl_fpga_fme_port_pr`; the buffer is given by its content. -/
structure PortPr where
  argsz : Nat
  flags : Nat
  portId : Nat
  bufferSize : Nat
  buffer : Nat → BitVec 8

/-- A request, and what it meets at each step. -/
structure Attempt where
  /-- The request can be copied from the user. -/
  copyRequest : Bool
  portPr : PortPr
  vmalloc : Bool
  /-- The image can be copied from the user. -/
  copyBuffer : Bool
  /-- `fpga_image_info_alloc` -/
  infoAlloc : Option Nat
  /-- `dfl_fpga_fdata_get_private` finds the FME device. -/
  fmePrivate : Bool
  /-- `fpga_region_class_find` finds the region. -/
  findRegion : Bool
  regionEnv : RegionEnv
  bridgeEnv : BridgeGetEnv
  disable : FmeBrEnv
  load : LoadEnv
  enable : FmeBrEnv

/-- `FME_CAP_NUM_PORTS` -/
def fmeCapNumPorts : Field := genmask 19 17

/-- The state which partial reconfiguration reads and writes. -/
structure DflFme where
  /-- `FME_HDR_CAP` -/
  cap : BitVec 64
  /-- The regions of `region_list`, by port id. -/
  regions : Nat → Option (FpgaRegion Nat)
  mgr : FpgaManager Unit
  bridges : Nat → FpgaBridge
  ports : Nat → FmePort
  /-- Image infos which are allocated, each with a device reference. -/
  liveInfos : List Nat
  /-- Buffers from `vmalloc` which are not freed. -/
  buffers : Int

/-- What the region of a port brings along for programming. -/
def fmeRegionOps (attempt : Attempt) (portId : Nat) :
    RegionOps Nat Unit (Nat → FmePort) where
  -- `fme_region_get_bridges`, with `fpga_bridge_get_to_list`
  getBridges := some fun state =>
    let got :=
      fpgaBridgeGet attempt.bridgeEnv state.region.info
        (state.bridges portId)
    let state := { state with
      bridges := Function.update state.bridges portId got.2 }
    match got.1 with
    | some ret => (some ret, state)
    | none =>
        (none, { state with region := { state.region with
          bridgeList := portId :: state.region.bridgeList } })
  enableSet bridge enable ports :=
    let env := if enable then attempt.enable else attempt.disable
    let set := fmeBridgeEnableSet env enable (ports bridge)
    (set.1, Function.update ports bridge set.2)
  load := fpgaMgrLoadBuf (fmeMgrOps attempt.load)

/-- The image info which a request hands to the region. -/
def Attempt.imageInfo (attempt : Attempt) (ident : Nat) : FpgaImageInfo where
  ident := ident
  partialReconfig := true
  regionId := attempt.portPr.portId
  headerSize := 0
  dataSize := 0
  buf := (List.range attempt.portPr.bufferSize).map attempt.portPr.buffer

/-- `fpga_image_info_free` -/
def DflFme.imageInfoFree (fme : DflFme) : Option FpgaImageInfo → DflFme
  | none => fme
  | some info => { fme with liveInfos := fme.liveInfos.erase info.ident }

/-- What the region of a request is programmed with. -/
def DflFme.programming
    (fme : DflFme) (region : FpgaRegion Nat) (info : FpgaImageInfo) :
    Programming Nat Unit (Nat → FmePort) where
  region :=
    { region with held := region.held.getDevice, info := some info }
  mgr := fme.mgr
  bridges := fme.bridges
  target := fme.ports

/-- `fme_pr`, from the region on -/
def fmePrProgram
    (attempt : Attempt) (ident : Nat) (fme : DflFme)
    (region : FpgaRegion Nat) : Option Errno × DflFme :=
  let fme := fme.imageInfoFree region.info
  let portId := attempt.portPr.portId
  let programmed :=
    fpgaRegionProgramFpga attempt.regionEnv (fmeRegionOps attempt portId)
      (fme.programming region (attempt.imageInfo ident))
  let state := programmed.2.putBridges
  (programmed.1,
    { fme with
      regions := Function.update fme.regions portId
        (some { state.region with held := state.region.held.putDevice })
      mgr := state.mgr
      bridges := state.bridges
      ports := state.target })

/-- `offsetofend(struct dfl_fpga_fme_port_pr, buffer_address)` -/
def portPrMinsz : Nat := 24

/-- `fme_pr`, once the image is in a buffer -/
def fmePrBuffered (attempt : Attempt) (fme : DflFme) : Option Errno × DflFme :=
  if !attempt.copyBuffer then
    (some .efault, fme)
  else
    match attempt.infoAlloc with
    | none => (some .enomem, fme)
    | some ident =>
        let fme := { fme with liveInfos := ident :: fme.liveInfos }
        if !attempt.fmePrivate then
          (some .einval, fme)
        else if !attempt.findRegion then
          (some .einval, fme)
        else
          match fme.regions attempt.portPr.portId with
          | none => (some .einval, fme)
          | some region => fmePrProgram attempt ident fme region

/-- `fme_pr` -/
def fmePr (attempt : Attempt) (fme : DflFme) : Option Errno × DflFme :=
  if !attempt.copyRequest then
    (some .efault, fme)
  else if attempt.portPr.argsz < portPrMinsz ∨ attempt.portPr.flags ≠ 0 ∨
      attempt.portPr.bufferSize = 0 then
    (some .einval, fme)
  else if fmeCapNumPorts.get fme.cap ≤ attempt.portPr.portId then
    (some .einval, fme)
  else if !attempt.vmalloc then
    (some .enomem, fme)
  else
    let ran :=
      fmePrBuffered attempt { fme with buffers := fme.buffers + 1 }
    (ran.1, { ran.2 with buffers := ran.2.buffers - 1 })

/-- One request after the other, as the lock of the FME has it. -/
def DflFme.Step (fme : DflFme) (attempt : Attempt) (next : DflFme) : Prop :=
  (fmePr attempt fme).2 = next

end LinuxDfl.Fme
