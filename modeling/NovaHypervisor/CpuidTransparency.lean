import NovaHypervisor.OperandHalves

/-!
What the guest's CPUID gives against what the host's gives. The results are stored as
signed numbers, so a register gets ones above a result that has its sign bit, and the
edits are made by the whole of RAX while the leaf is its low half.
-/
namespace NovaHypervisor

open RegistersHandler

def documentedCpuid (leaf : BitVec 32) (cpuInfo : CpuInfo) : CpuInfo :=
  if leaf = 1#32 then { cpuInfo with ecx := cpuInfo.ecx ||| 1#32 <<< 31 }
  else if leaf = 0x40000001#32 then { cpuInfo with eax := 0x30237648#32 }
  else if leaf = 0x40000003#32 then
    { cpuInfo with edx := cpuInfo.edx &&& ~~~(1#32 <<< 4 ||| 1#32 <<< 15) }
  else cpuInfo

def hostCpuid (host : Host) (r : GuestRegs) : CpuInfo :=
  host.cpuidex (r.rax.setWidth 32) (r.rcx.setWidth 32)

/-- The frame `q` holds the edited answer, zero-extended, and is otherwise the frame `r`. -/
structure TransparentCpuid (host : Host) (r q : GuestRegs) : Prop where
  low : CpuInfo.mk (q.rax.setWidth 32) (q.rbx.setWidth 32) (q.rcx.setWidth 32)
    (q.rdx.setWidth 32) = documentedCpuid (r.rax.setWidth 32) (hostCpuid host r)
  upper : ∀ x ∈ [q.rax, q.rbx, q.rcx, q.rdx], upperClear x = true
  others : { q with rax := 0, rbx := 0, rcx := 0, rdx := 0 } =
    { r with rax := 0, rbx := 0, rcx := 0, rdx := 0 }

/-- The leaf is not leaf 1, whose ECX always has its sign bit; no result of the host has
it, but for the one that the signature replaces; and a leaf with ones above it in RAX
asks for no edit, or for one that changes nothing. -/
structure UnsignedCpuid (host : Host) (r : GuestRegs) : Prop where
  leaf : r.rax.setWidth 32 ≠ 1#32
  eax : r.rax.setWidth 32 = 0x40000001#32 ∨ (hostCpuid host r).eax.msb = false
  ebx : (hostCpuid host r).ebx.msb = false
  ecx : (hostCpuid host r).ecx.msb = false
  edx : (hostCpuid host r).edx.msb = false
  edits : upperClear r.rax = true ∨
    documentedCpuid (r.rax.setWidth 32) (hostCpuid host r) = hostCpuid host r

theorem setWidth_signExtend (x : BitVec 32) : (x.signExtend 64).setWidth 32 = x := by
  apply BitVec.eq_of_getLsbD_eq
  intro i hi
  have hlt : i < 64 := by omega
  simp only [BitVec.getLsbD_setWidth, BitVec.getLsbD_signExtend, hi, hlt, decide_true,
    Bool.true_and, if_true]

theorem upperClear_signExtend (x : BitVec 32) :
    upperClear (x.signExtend 64) = true ↔ x.msb = false := by
  rw [upperClear_iff]
  have hx := x.isLt
  cases hmsb : x.msb with
  | false =>
    rw [BitVec.signExtend_eq_setWidth_of_msb_false hmsb, BitVec.toNat_setWidth]
    simp only [iff_true]
    omega
  | true =>
    have htop : (x.signExtend 64).getLsbD 63 = true := by
      simp [BitVec.getLsbD_signExtend, hmsb]
    simp only [Bool.true_eq_false, iff_false, not_lt]
    have hle := Nat.ge_two_pow_of_testBit htop
    omega

theorem maskCpuid_lowHalf (leaf : Word) (cpuInfo : CpuInfo) :
    Emulation.maskCpuid (lowHalf leaf) cpuInfo = documentedCpuid (leaf.setWidth 32) cpuInfo := by
  have heq : ∀ c : BitVec 32, lowHalf leaf = c.setWidth 64 ↔ leaf.setWidth 32 = c := by
    intro c
    rw [lowHalf]
    constructor
    · intro h
      have hlow := congrArg (BitVec.setWidth 32) h
      rwa [BitVec.setWidth_setWidth_of_le _ (by decide), BitVec.setWidth_eq,
        BitVec.setWidth_setWidth_of_le _ (by decide), BitVec.setWidth_eq] at hlow
    · intro h
      rw [h]
  have hone := heq 1#32
  have hinterface := heq 0x40000001#32
  have hfeatures := heq 0x40000003#32
  simp only [Emulation.maskCpuid, documentedCpuid, ← hone, ← hinterface, ← hfeatures]
  rfl

/-- The edits that are made are those of the leaf, if RAX has no more than the leaf. -/
theorem maskCpuid_eq_documented_iff (leaf : Word) (cpuInfo : CpuInfo) :
    Emulation.maskCpuid leaf cpuInfo = documentedCpuid (leaf.setWidth 32) cpuInfo ↔
      upperClear leaf = true ∨ documentedCpuid (leaf.setWidth 32) cpuInfo = cpuInfo := by
  rw [Emulation.maskCpuid_eq, maskCpuid_lowHalf]
  cases upperClear leaf <;> simp [eq_comm]

theorem documentedCpuid_msb (leaf : BitVec 32) (cpuInfo : CpuInfo) :
    (documentedCpuid leaf cpuInfo).eax.msb = (leaf ≠ 0x40000001#32 && cpuInfo.eax.msb) ∧
      (documentedCpuid leaf cpuInfo).ebx.msb = cpuInfo.ebx.msb ∧
      (documentedCpuid leaf cpuInfo).ecx.msb = (leaf = 1#32 || cpuInfo.ecx.msb) ∧
      (documentedCpuid leaf cpuInfo).edx.msb = cpuInfo.edx.msb := by
  have hsignature : (0x30237648#32).msb = false := by decide
  have hpresent : (1#32 <<< 31).msb = true := by decide
  have hfeatures : (~~~(1#32 <<< 4 ||| 1#32 <<< 15)).msb = true := by decide
  by_cases hone : leaf = 1#32
  · subst hone
    rw [documentedCpuid, if_pos rfl]
    simp only [BitVec.msb_or, hpresent]
    simp
  by_cases hinterface : leaf = 0x40000001#32
  · subst hinterface
    rw [documentedCpuid, if_neg (by decide), if_pos rfl]
    simp [hsignature]
  by_cases hedx : leaf = 0x40000003#32
  · subst hedx
    rw [documentedCpuid, if_neg (by decide), if_neg (by decide), if_pos rfl]
    simp only [BitVec.msb_and, hfeatures]
    simp
  · rw [documentedCpuid, if_neg hone, if_neg hinterface, if_neg hedx]
    simp [hone, hinterface]

/-- The emulation is transparent exactly for a plain leaf with unsigned results. -/
theorem transparentCpuid_iff (host : Host) (r : GuestRegs) :
    TransparentCpuid host r (handleCpuid host r).2 ↔ UnsignedCpuid host r := by
  have hresult : (handleCpuid host r).2 =
      let cpuInfo := Emulation.maskCpuid r.rax (hostCpuid host r)
      { r with
        rax := cpuInfo.eax.signExtend 64
        rbx := cpuInfo.ebx.signExtend 64
        rcx := cpuInfo.ecx.signExtend 64
        rdx := cpuInfo.edx.signExtend 64 } := rfl
  obtain ⟨heax, hebx, hecx, hedx⟩ :=
    documentedCpuid_msb (r.rax.setWidth 32) (hostCpuid host r)
  have hedits := maskCpuid_eq_documented_iff r.rax (hostCpuid host r)
  constructor
  · intro h
    have hlow := h.low
    have hupper := h.upper
    rw [hresult] at hlow hupper
    simp only [setWidth_signExtend] at hlow
    simp only [List.forall_mem_cons, List.not_mem_nil, false_implies, implies_true, and_true,
      upperClear_signExtend] at hupper
    have hmasked : Emulation.maskCpuid r.rax (hostCpuid host r) =
        documentedCpuid (r.rax.setWidth 32) (hostCpuid host r) := hlow
    rw [hmasked, heax, hebx, hecx, hedx] at hupper
    obtain ⟨hax, hbx, hcx, hdx⟩ := hupper
    simp only [Bool.or_eq_false_iff, decide_eq_false_iff_not] at hcx
    refine ⟨hcx.1, ?_, hbx, hcx.2, hdx, hedits.mp hmasked⟩
    by_cases hinterface : r.rax.setWidth 32 = 0x40000001#32
    · exact Or.inl hinterface
    · exact Or.inr (by simpa [hinterface] using hax)
  · intro h
    have hmasked := hedits.mpr h.edits
    rw [hresult, hmasked]
    refine ⟨?_, ?_, rfl⟩
    · simp only [setWidth_signExtend]
    · simp only [List.forall_mem_cons, List.not_mem_nil, false_implies, implies_true, and_true,
        upperClear_signExtend]
      rw [heax, hebx, hecx, hedx]
      refine ⟨?_, h.ebx, by simp [h.leaf, h.ecx], h.edx⟩
      rcases h.eax with hinterface | hunsigned
      · simp [hinterface]
      · simp [hunsigned]

/-- Leaf 1 of a host puts ones above the bit that is set in ECX. -/
theorem not_transparentCpuid_leaf :
    ¬ ∀ (host : Host) (r : GuestRegs), TransparentCpuid host r (handleCpuid host r).2 := by
  intro h
  have hupper := (h fastHypercallHost (operandFrame 1 0 0)).upper
    (handleCpuid fastHypercallHost (operandFrame 1 0 0)).2.rcx (by simp)
  exact absurd hupper (by decide)

end NovaHypervisor
