import DaosOperator.Hostprep.Discover

/-!
# The serial number of a PCI device

`parseDSN` follows the extended capabilities of a configuration space to the one that holds
the serial number.  Before it reads a header it asks for the twelve bytes that a serial number
takes, so it gives up at a shorter capability close to the end of the space.
-/

namespace DaosOperator.Hostprep

/-! ## Reads out of range -/

/-- The little-endian number at an offset, `none` where the bytes are not there. -/
def uint32At? (cfg : List UInt8) (off : Nat) : Option Nat :=
  if off + 4 ≤ cfg.length then some (uint32At cfg off) else none

/-- The walk of `findDSN`, `none` where it reads out of range. -/
def findDSN? (cfg : List UInt8) : Nat → Nat → Option String
  | 0, _ => some ""
  | fuel + 1, off =>
      if off = 0 ∨ cfg.length < off + 12 then some ""
      else
        (uint32At? cfg off).bind fun hdr =>
          if hdr % 65536 = 3 then
            (uint32At? cfg (off + 4)).bind fun lo =>
              (uint32At? cfg (off + 8)).bind fun hi =>
                if lo = 0 ∧ hi = 0 then some "" else some (hex8 hi ++ hex8 lo)
          else findDSN? cfg fuel (hdr / 2 ^ 20)

/-- The walk never reads out of range. -/
theorem findDSN?_eq (cfg : List UInt8) (fuel off : Nat) :
    findDSN? cfg fuel off = some (findDSN cfg fuel off) := by
  induction fuel generalizing off with
  | zero => rfl
  | succ fuel ih =>
      unfold findDSN? findDSN
      split
      · rfl
      · next h =>
          have hread : ∀ i, i + 4 ≤ 12 →
              uint32At? cfg (off + i) = some (uint32At cfg (off + i)) := by
            intro i hi
            exact if_pos (by omega)
          rw [show uint32At? cfg off = _ from hread 0 (by omega), hread 4 (by omega),
            hread 8 (by omega)]
          simp only [Option.bind_some, Nat.add_zero]
          split
          · split <;> rfl
          · exact ih _

/-! ## Capabilities -/

/-- The number of the capability at an offset. -/
def capId (cfg : List UInt8) (off : Nat) : Nat := uint32At cfg off % 65536

/-- The pointer to the next capability, 0 at the last one. -/
def nextCap (cfg : List UInt8) (off : Nat) : Nat := uint32At cfg off / 2 ^ 20

/-- The serial number of the capability at an offset. -/
def serialAt (cfg : List UInt8) (off : Nat) : String :=
  hex8 (uint32At cfg (off + 8)) ++ hex8 (uint32At cfg (off + 4))

/-- The next pointers lead from one capability over those at `offs` to the one at `dsn`; the
headers on the way are inside the space, and none of them is a serial number. -/
inductive Leads (cfg : List UInt8) (dsn : Nat) : Nat → List Nat → Prop where
  | here : Leads cfg dsn dsn []
  | beyond {off : Nat} {offs : List Nat} (hinside : off + 4 ≤ cfg.length)
      (hid : capId cfg off ≠ 3) (hnext : nextCap cfg off ≠ 0)
      (hrest : Leads cfg dsn (nextCap cfg off) offs) : Leads cfg dsn off (off :: offs)

/-- The device has a serial number: among the first 64 capabilities, and inside the space. -/
structure HasSerial (cfg : List UInt8) (offs : List Nat) (dsn : Nat) : Prop where
  leads : Leads cfg dsn 0x100 offs
  short : offs.length < 64
  id : capId cfg dsn = 3
  inside : dsn + 12 ≤ cfg.length
  nonzero : ¬(uint32At cfg (dsn + 4) = 0 ∧ uint32At cfg (dsn + 8) = 0)

/-- The serial number is found whenever the device has one, and nothing is read out of
range. -/
def FindsSerial (cfg : List UInt8) : Prop :=
  findDSN? cfg 64 0x100 = some (parseDSN cfg) ∧
    ∀ offs dsn, HasSerial cfg offs dsn → parseDSN cfg = serialAt cfg dsn

/-- Every capability on the way to the serial number has twelve bytes inside the space. -/
def RoomOnTheWay (cfg : List UInt8) : Prop :=
  ∀ offs dsn, HasSerial cfg offs dsn → ∀ off ∈ offs, off + 12 ≤ cfg.length

theorem hex8_ne_empty (n : Nat) : hex8 n ≠ "" := by
  intro h
  have hlength := congrArg (fun s => s.toList.length) h
  simp [hex8] at hlength

/-- The walk reaches the serial number exactly when it does not give up on the way. -/
theorem findDSN_of_leads {cfg : List UInt8} {dsn off : Nat} {offs : List Nat}
    (h : Leads cfg dsn off offs) (hoff : off ≠ 0) (hid : capId cfg dsn = 3)
    (hinside : dsn + 12 ≤ cfg.length)
    (hnonzero : ¬(uint32At cfg (dsn + 4) = 0 ∧ uint32At cfg (dsn + 8) = 0)) {fuel : Nat}
    (hfuel : offs.length < fuel) :
    findDSN cfg fuel off = serialAt cfg dsn ↔ ∀ o ∈ offs, o + 12 ≤ cfg.length := by
  induction h generalizing fuel with
  | here =>
      obtain ⟨fuel, rfl⟩ : ∃ n, fuel = n + 1 := ⟨fuel - 1, by omega⟩
      unfold findDSN
      have hhdr : uint32At cfg dsn % 65536 = 3 := hid
      rw [if_neg (by omega)]
      simp only [hhdr, if_true, if_neg hnonzero]
      simp [serialAt]
  | @beyond off offs _ hother hnext _ ih =>
      obtain ⟨fuel, rfl⟩ : ∃ n, fuel = n + 1 := ⟨fuel - 1, by omega⟩
      unfold findDSN
      by_cases hroom : off + 12 ≤ cfg.length
      · rw [if_neg (by omega)]
        simp only [if_neg (show uint32At cfg off % 65536 ≠ 3 from hother)]
        rw [show uint32At cfg off / 2 ^ 20 = nextCap cfg off from rfl,
          ih hnext (by simpa using hfuel)]
        simp [hroom]
      · -- it gives up, and a serial number is not empty
        rw [if_pos (Or.inr (by omega))]
        have hempty : "" ≠ serialAt cfg dsn := by
          intro h
          exact hex8_ne_empty _ (String.append_eq_empty_iff.mp h.symm).1
        simp [hroom, hempty]

/-- The serial number is found exactly when every capability on the way to it has room for
one. -/
theorem serial_found_iff (cfg : List UInt8) : FindsSerial cfg ↔ RoomOnTheWay cfg := by
  have hfound : ∀ offs dsn, HasSerial cfg offs dsn →
      (parseDSN cfg = serialAt cfg dsn ↔ ∀ o ∈ offs, o + 12 ≤ cfg.length) :=
    fun offs dsn h => findDSN_of_leads h.leads (by decide) h.id h.inside h.nonzero h.short
  constructor
  · intro h offs dsn hdsn
    exact (hfound offs dsn hdsn).mp (h.2 offs dsn hdsn)
  · intro h
    exact ⟨findDSN?_eq cfg 64 0x100, fun offs dsn hdsn => (hfound offs dsn hdsn).mpr
      (h offs dsn hdsn)⟩

/-- A space of 4096 bytes: the capability at 0x100 points to one in the last four bytes, and
that one to the serial number at 0x104. -/
def lateCapability : List UInt8 :=
  List.replicate 0x100 0 ++ [1, 0, 0xc1, 0xff, 3, 0, 1, 0, 0xef, 0xbe, 0xad, 0xde, 1, 0, 0, 0] ++
    List.replicate 0xeec 0 ++ [2, 0, 0x41, 0x10]

/-- The serial number is there and is not found. -/
theorem serial_behind_late_capability : ¬FindsSerial lateCapability := by
  intro h
  have hserial : HasSerial lateCapability [0x100, 0xffc] 0x104 := by
    refine ⟨.beyond (by decide +kernel) (by decide +kernel) (by decide +kernel) ?_, by decide,
      by decide +kernel, by decide +kernel, by decide +kernel⟩
    rw [show nextCap lateCapability 0x100 = 0xffc by decide +kernel]
    refine .beyond (by decide +kernel) (by decide +kernel) (by decide +kernel) ?_
    rw [show nextCap lateCapability 0xffc = 0x104 by decide +kernel]
    exact .here
  have hfound := h.2 _ _ hserial
  revert hfound
  decide +kernel

end DaosOperator.Hostprep
