import NovaHypervisor.Definitions
import NovaHypervisor.General.ByteMemory
import Mathlib.Logic.Function.Basic

/-!
The segment registers of the guest state, filled from the descriptor table of the host.
A descriptor is read byte by byte and put together with shifts of C integers: the bytes
of the base are promoted to a signed int of 32 bits before they are joined.
-/
namespace NovaHypervisor

open General

/-- The VMCS by the encodings of its fields. -/
abbrev VmcsContent := BitVec 32 → Word

namespace VmcsContent

/-- Bits 14:13 of an encoding give the width of the field. -/
def width (encoding : BitVec 32) : ℕ :=
  match (encoding.extractLsb' 13 2).toNat with
  | 0 => 16
  | 2 => 32
  | _ => 64

def vmwrite (encoding : BitVec 32) (value : Word) (vmcs : VmcsContent) : VmcsContent :=
  Function.update vmcs encoding ((value.setWidth (width encoding)).setWidth 64)

theorem vmwrite_of_ne {encoding encoding' : BitVec 32} (h : encoding' ≠ encoding) (value : Word)
    (vmcs : VmcsContent) : vmcs.vmwrite encoding value encoding' = vmcs encoding' :=
  Function.update_of_ne h _ _

/-- A value of the field's width is kept as it is. -/
theorem vmwrite_self {encoding : BitVec 32} {w : ℕ} (h : width encoding = w) (hw : w ≤ 64)
    (value : BitVec w) (vmcs : VmcsContent) :
    vmcs.vmwrite encoding (value.setWidth 64) encoding = value.setWidth 64 := by
  subst h
  rw [vmwrite, Function.update_self, BitVec.setWidth_setWidth_of_le _ hw, BitVec.setWidth_eq]

end VmcsContent

inductive Segregs where
  | es
  | cs
  | ss
  | ds
  | fs
  | gs
  | ldtr
  | tr
  deriving DecidableEq

def Segregs.value : Segregs → BitVec 32
  | es => 0
  | cs => 1
  | ss => 2
  | ds => 3
  | fs => 4
  | gs => 5
  | ldtr => 6
  | tr => 7

structure SegmentDescriptor where
  limit0 : BitVec 16
  base0 : BitVec 16
  base1 : BitVec 8
  attr0 : BitVec 8
  limit1Attr1 : BitVec 8
  base2 : BitVec 8

structure SegmentSelector where
  sel : BitVec 16
  attributes : BitVec 16
  limit : BitVec 32
  base : Word

/-- The granularity bit of the attributes. -/
def SegmentSelector.g (segmentSelector : SegmentSelector) : Bool :=
  segmentSelector.attributes.getLsbD 11

namespace VmxHelper

def guestEsSelector : BitVec 32 := 0x800#32

def guestEsLimit : BitVec 32 := 0x4800#32

def guestEsArBytes : BitVec 32 := 0x4814#32

def guestEsBase : BitVec 32 := 0x6806#32

/-- The descriptor that a selector names, by its index. -/
def segDesc (gdtBase : Word) (selector : BitVec 16) : Word :=
  gdtBase + (selector &&& ~~~7#16).setWidth 64

def loadDescriptor (memory : ByteMemory) (segDesc : Word) : SegmentDescriptor where
  limit0 := memory.read segDesc 2
  base0 := memory.read (segDesc + 2) 2
  base1 := memory (segDesc + 4)
  attr0 := memory (segDesc + 5)
  limit1Attr1 := memory (segDesc + 6)
  base2 := memory (segDesc + 7)

/-- The base as the int that the promoted bytes make. -/
def baseInt (d : SegmentDescriptor) : BitVec 32 :=
  d.base0.setWidth 32 ||| d.base1.setWidth 32 <<< 16 ||| d.base2.setWidth 32 <<< 24

def limitInt (d : SegmentDescriptor) : BitVec 32 :=
  d.limit0.setWidth 32 ||| (d.limit1Attr1.setWidth 32 &&& 0xF#32) <<< 16

def attributesOf (d : SegmentDescriptor) : BitVec 16 :=
  d.attr0.setWidth 16 ||| (d.limit1Attr1.setWidth 16 &&& 0xF0#16) <<< 4

def getSegmentDescriptor (memory : ByteMemory) (selector : BitVec 16) (gdtBase : Word) :
    Option SegmentSelector :=
  if selector &&& 4#16 ≠ 0 then none
  else
    let address := segDesc gdtBase selector
    let d := loadDescriptor memory address
    let base := (baseInt d).signExtend 64
    let segmentSelector : SegmentSelector :=
      { sel := selector, attributes := attributesOf d, limit := limitInt d, base := base }
    let segmentSelector :=
      if d.attr0 &&& 0x10#8 = 0 then
        -- A system descriptor has the high part of its base in the next 8 bytes.
        let tmp : Word := memory.read (address + 8) 8
        { segmentSelector with base := (base &&& 0xFFFFFFFF#64) ||| tmp <<< 32 }
      else segmentSelector
    some (if segmentSelector.g then
        { segmentSelector with limit := (segmentSelector.limit <<< 12) + 0xFFF#32 }
      else segmentSelector)

def accessRightsOf (attributes selector : BitVec 16) : BitVec 32 :=
  let accessRights := (attributes.extractLsb' 0 8).setWidth 32 +
    (attributes.extractLsb' 8 8).setWidth 32 <<< 12
  if selector = 0 then accessRights ||| 0x10000#32 else accessRights

def fillGuestSelectorData (memory : ByteMemory) (gdtBase : Word) (segmentRegister : BitVec 32)
    (selector : BitVec 16) (vmcs : VmcsContent) : Bool × VmcsContent :=
  match getSegmentDescriptor memory selector gdtBase with
  | none => (false, vmcs)
  | some segmentSelector =>
    let vmcs := vmcs.vmwrite (guestEsSelector + segmentRegister * 2) (selector.setWidth 64)
    let vmcs := vmcs.vmwrite (guestEsLimit + segmentRegister * 2)
      (segmentSelector.limit.setWidth 64)
    let vmcs := vmcs.vmwrite (guestEsArBytes + segmentRegister * 2)
      ((accessRightsOf segmentSelector.attributes selector).setWidth 64)
    (true, vmcs.vmwrite (guestEsBase + segmentRegister * 2) segmentSelector.base)

end VmxHelper

end NovaHypervisor
