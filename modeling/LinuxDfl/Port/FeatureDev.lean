import LinuxDfl.Kernel.Errno

/-!
# Port feature devices and their container device

The enumeration data of a port (`struct dfl_feature_dev_data`), the exclusive
and shared use of it, and the two operations of the container device which
take a port away from the physical function and give it back.

The fields `dev`, `id`, `excl_open`, `open_count` and the features' `dev`
pointers are those the operations read or write; both counts are an `int` of
32 bits.  What the platform bus and the module loader answer is a parameter of
each operation.
-/

namespace LinuxDfl.Port

open LinuxDfl.Kernel

/-- A platform device, by the identity its allocation gave it. -/
abbrev PlatformDevice := Nat

/-- `struct dfl_feature`, as far as port registration touches it. -/
structure DflFeature where
  dev : Option PlatformDevice
  deriving DecidableEq, Repr

/-- `FEATURE_DEV_ID_UNUSED`. -/
def featureDevIdUnused : Int := -1

/--
`struct dfl_feature_dev_data` of a port.  `portNum` is the port number in its
`PORT_HDR_CAP` register, which `port_get_id` reads.
-/
structure FeatureDevData where
  portNum : Nat
  dev : Option PlatformDevice
  id : Int
  exclOpen : Bool
  openCount : BitVec 32
  features : List DflFeature
  deriving DecidableEq, Repr

/-- `dfl_feature_dev_use_begin` -/
def dflFeatureDevUseBegin (fdata : FeatureDevData) (excl : Bool) :
    Option Errno × FeatureDevData :=
  if fdata.exclOpen then
    (some .ebusy, fdata)
  else if excl then
    if fdata.openCount ≠ 0 then
      (some .ebusy, fdata)
    else
      (none, { fdata with
        exclOpen := true, openCount := fdata.openCount + 1 })
  else
    (none, { fdata with openCount := fdata.openCount + 1 })

/-- `dfl_feature_dev_use_end` -/
def dflFeatureDevUseEnd (fdata : FeatureDevData) : FeatureDevData :=
  if fdata.openCount.toInt ≤ 0 then
    { fdata with exclOpen := false }
  else
    { fdata with exclOpen := false, openCount := fdata.openCount - 1 }

/-- Answers of the platform bus while a port is registered. -/
structure RegisterEnv where
  /-- `platform_device_alloc` -/
  alloc : Option PlatformDevice
  /-- `platform_device_add_resources` -/
  addResources : Option Errno
  /-- `platform_device_add_data` -/
  addData : Option Errno
  /-- `platform_device_add` -/
  add : Option Errno
  deriving DecidableEq, Repr

/-- Link, or unlink, the platform device of a port and of all its features. -/
def FeatureDevData.setDev
    (fdata : FeatureDevData) (dev : Option PlatformDevice) :
    FeatureDevData :=
  { fdata with
    dev := dev, features := fdata.features.map fun _ => ⟨dev⟩ }

/-- `feature_dev_register` -/
def featureDevRegister (env : RegisterEnv) (fdata : FeatureDevData) :
    Option Errno × FeatureDevData :=
  match env.alloc with
  | none => (some .enomem, fdata)
  | some fdev =>
      match env.addResources with
      | some ret => (some ret, (fdata.setDev fdev).setDev none)
      | none =>
          match env.addData with
          | some ret => (some ret, (fdata.setDev fdev).setDev none)
          | none =>
              match env.add with
              | some ret => (some ret, (fdata.setDev fdev).setDev none)
              | none => (none, fdata.setDev fdev)

/-- `feature_dev_unregister` -/
def featureDevUnregister (fdata : FeatureDevData) : FeatureDevData :=
  fdata.setDev none

/--
`dfl_fpga_check_port_id`.  `portOps` says whether `dfl_fpga_port_ops_get`
finds the operations of the port driver, whose `get_id` is then available.
-/
def dflFpgaCheckPortId
    (portOps : Bool) (fdata : FeatureDevData) (portId : Int) :
    Bool × FeatureDevData :=
  if fdata.id ≠ featureDevIdUnused then
    (decide (fdata.id = portId), fdata)
  else if portOps then
    (decide ((fdata.portNum : Int) = portId),
      { fdata with id := fdata.portNum })
  else
    (false, fdata)

/--
`__dfl_fpga_cdev_find_port_data` with `dfl_fpga_check_port_id`: the position
of the first port which matches, and the list with the ids found on the way.
-/
def dflFpgaCdevFindPortData (portOps : Nat → Bool) (portId : Int) :
    List FeatureDevData → Option Nat × List FeatureDevData
  | [] => (none, [])
  | fdata :: rest =>
      let checked := dflFpgaCheckPortId (portOps 0) fdata portId
      if checked.1 then
        (some 0, checked.2 :: rest)
      else
        let found :=
          dflFpgaCdevFindPortData (fun n => portOps (n + 1)) portId rest
        (found.1.map (· + 1), checked.2 :: found.2)

/-- `struct dfl_fpga_cdev`, as far as the port operations use it. -/
structure DflFpgaCdev where
  portDevList : List FeatureDevData
  releasedPortNum : BitVec 32
  deriving DecidableEq, Repr

/-- Replace the data of the port at a position of the list. -/
def DflFpgaCdev.setPort
    (cdev : DflFpgaCdev) (position : Nat) (fdata : FeatureDevData) :
    DflFpgaCdev :=
  { cdev with portDevList := cdev.portDevList.set position fdata }

/-- `dfl_fpga_cdev_release_port` -/
def dflFpgaCdevReleasePort
    (portOps : Nat → Bool) (cdev : DflFpgaCdev) (portId : Int) :
    Option Errno × DflFpgaCdev :=
  let found := dflFpgaCdevFindPortData portOps portId cdev.portDevList
  let cdev := { cdev with portDevList := found.2 }
  match found.1 with
  | none => (some .enodev, cdev)
  | some position =>
      match cdev.portDevList[position]? with
      | none => (some .enodev, cdev)
      | some fdata =>
          if fdata.dev.isNone then
            (some .ebusy, cdev)
          else
            match dflFeatureDevUseBegin fdata true with
            | (some ret, _) => (some ret, cdev)
            | (none, fdata) =>
                (none,
                  { cdev.setPort position (featureDevUnregister fdata) with
                    releasedPortNum := cdev.releasedPortNum + 1 })

/-- `dfl_fpga_cdev_assign_port` -/
def dflFpgaCdevAssignPort
    (portOps : Nat → Bool) (env : RegisterEnv)
    (cdev : DflFpgaCdev) (portId : Int) :
    Option Errno × DflFpgaCdev :=
  let found := dflFpgaCdevFindPortData portOps portId cdev.portDevList
  let cdev := { cdev with portDevList := found.2 }
  match found.1 with
  | none => (some .enodev, cdev)
  | some position =>
      match cdev.portDevList[position]? with
      | none => (some .enodev, cdev)
      | some fdata =>
          if fdata.dev.isSome then
            (some .ebusy, cdev)
          else
            match featureDevRegister env fdata with
            | (some ret, fdata) => (some ret, cdev.setPort position fdata)
            | (none, fdata) =>
                (none,
                  { cdev.setPort position (dflFeatureDevUseEnd fdata) with
                    releasedPortNum := cdev.releasedPortNum - 1 })

end LinuxDfl.Port
