import LinuxDfl.Kernel.Bitfield

/-!
# Device feature headers

The registers of a device feature list which enumeration reads, and their
fields.
-/

namespace LinuxDfl.Dfl

open LinuxDfl.Kernel

/-! ## Registers of a header -/

/-- `DFH` -/
def dfh : Int := 0x0
/-- `GUID_L` -/
def guidL : Int := 0x8
/-- `GUID_H` -/
def guidH : Int := 0x10
/-- `NEXT_AFU` -/
def nextAfu : Int := 0x18

/-- `DFH_SIZE` -/
def dfhSize : Nat := 0x8

/-- `DFH_ID` -/
def dfhId : Field := genmask 11 0
/-- `DFH_REVISION` -/
def dfhRevision : Field := genmask 15 12
/-- `DFH_NEXT_HDR_OFST` -/
def dfhNextHdrOfst : Field := genmask 39 16
/-- `DFH_EOL` -/
def dfhEol : Field := bit 40
/-- `DFH_VERSION` -/
def dfhVersion : Field := genmask 59 52
/-- `DFH_TYPE` -/
def dfhType : Field := genmask 63 60

/-- `DFH_ID_FIU_FME` -/
def dfhIdFiuFme : Nat := 0
/-- `DFH_ID_FIU_PORT` -/
def dfhIdFiuPort : Nat := 1
/-- `DFH_ID_FIU_PRIV_FEAT` -/
def dfhIdFiuPrivFeat : Nat := 2

/-- `DFH_TYPE_AFU` -/
def dfhTypeAfu : Nat := 1
/-- `DFH_TYPE_PRIVATE` -/
def dfhTypePrivate : Nat := 3
/-- `DFH_TYPE_FIU` -/
def dfhTypeFiu : Nat := 4
/-- `DFH_TYPE_INTERFACE` -/
def dfhTypeInterface : Nat := 5

/-- `NEXT_AFU_NEXT_DFH_OFST` -/
def nextAfuNextDfhOfst : Field := genmask 23 0

/-! ## Version 1 -/

/-- `DFHv1_CSR_ADDR` -/
def dfhv1CsrAddr : Int := 0x18
/-- `DFHv1_CSR_SIZE_GRP` -/
def dfhv1CsrSizeGrp : Int := 0x20
/-- `DFHv1_PARAM_HDR` -/
def dfhv1ParamHdr : Int := 0x28

/-- `DFHv1_CSR_ADDR_REL` -/
def dfhv1CsrAddrRel : Field := bit 0
/-- `DFHv1_CSR_ADDR_MASK` -/
def dfhv1CsrAddrMask : Field := genmask 63 1
/-- `DFHv1_CSR_SIZE_GRP_HAS_PARAMS` -/
def dfhv1CsrSizeGrpHasParams : Field := bit 31
/-- `DFHv1_CSR_SIZE_GRP_SIZE` -/
def dfhv1CsrSizeGrpSize : Field := genmask 63 32

/-- `DFHv1_PARAM_HDR_ID` -/
def dfhv1ParamHdrId : Field := genmask 15 0
/-- `DFHv1_PARAM_HDR_NEXT_OFFSET` -/
def dfhv1ParamHdrNextOffset : Field := genmask 63 35
/-- `DFHv1_PARAM_HDR_NEXT_EOP` -/
def dfhv1ParamHdrNextEop : Field := bit 32

/-- `DFHv1_PARAM_ID_MSI_X` -/
def dfhv1ParamIdMsiX : Nat := 0x1
/-- `DFHv1_PARAM_MSI_X_NUMV` -/
def dfhv1ParamMsiXNumv : Field := genmask 63 32
/-- `DFHv1_PARAM_MSI_X_STARTV` -/
def dfhv1ParamMsiXStartv : Field := genmask 31 0

/-! ## Features -/

/-- `FEATURE_ID_FIU_HEADER` -/
def featureIdFiuHeader : Nat := 0xfe
/-- `FEATURE_ID_AFU` -/
def featureIdAfu : Nat := 0xff

/-- `FME_FEATURE_ID_GLOBAL_ERR` -/
def fmeFeatureIdGlobalErr : Nat := 0x4
/-- `PORT_FEATURE_ID_ERROR` -/
def portFeatureIdError : Nat := 0x10
/-- `PORT_FEATURE_ID_UINT` -/
def portFeatureIdUint : Nat := 0x12

/-- `PORT_HDR_CAP` -/
def portHdrCap : Int := 0x30
/-- `PORT_CAP_MMIO_SIZE` -/
def portCapMmioSize : Field := genmask 23 8

/-- The register and the fields in which a feature gives its interrupts. -/
structure IrqCap where
  register : Int
  first : Field
  count : Field

/-- `PORT_UINT_CAP` -/
def portUintCap : IrqCap := ⟨0x8, genmask 23 12, genmask 11 0⟩
/-- `PORT_ERROR_CAP` -/
def portErrorCap : IrqCap := ⟨0x38, genmask 12 1, bit 0⟩
/-- `FME_ERROR_CAP` -/
def fmeErrorCap : IrqCap := ⟨0x70, genmask 12 1, bit 0⟩

/-- `enum dfl_id_type` -/
inductive DflIdType where
  | fme
  | port
  | privFeat
  | max
  deriving DecidableEq, Repr

/-- `dfh_id_to_type` -/
def dfhIdToType (id : Nat) : DflIdType :=
  if id = dfhIdFiuFme then .fme
  else if id = dfhIdFiuPort then .port
  else if id = dfhIdFiuPrivFeat then .privFeat
  else .max

/-- `feature_id` -/
def featureId (value : BitVec 64) : Nat :=
  let id := dfhId.get value
  let type := dfhType.get value
  if type = dfhTypeFiu then featureIdFiuHeader
  else if type = dfhTypePrivate then id
  else if type = dfhTypeAfu then featureIdAfu
  else 0

end LinuxDfl.Dfl
