import DaosOperator.Text

/-!
# Host discovery

`hostprep` looks for NVMe controllers below the host's sysfs, which its container sees
under a root path, and tells those in use from those SPDK may take.  The mount table is
read at a fixed path that the root does not apply to: unless a path is given, it is the
table of the container and not the one of the host.
-/

namespace DaosOperator.Hostprep

/-! ## The host -/

/-- The directory of a block device below its controller. -/
structure BlockDir where
  name : String
  entries : List String := []
  holders : List String := []
  deriving DecidableEq

/-- An entry of `/sys/bus/pci/devices`; a file or link that cannot be read is `none`. -/
structure PciDevice where
  address : String
  cls : Option String := none
  /-- The last element of the path the link `driver` points to. -/
  driver : Option String := none
  numaNode : Option String := none
  /-- The configuration space. -/
  config : Option (List UInt8) := none
  /-- The directories below `nvme`, with their block devices. -/
  controllers : List (String × List BlockDir) := []
  deriving DecidableEq

/-- A directory of PCI devices; its entries have different names. -/
structure PciBus where
  devices : List PciDevice
  distinct : (devices.map (·.address)).Nodup

/-- What hostprep's container sees. -/
structure View where
  /-- The PCI devices below a directory that can be listed. -/
  pci : String → Option PciBus
  /-- The lines of a text file that can be opened. -/
  lines : String → Option (List String)

/-! ## Controllers -/

structure NVMe where
  pci : String
  driver : String := ""
  /-- The device serial number, empty if the device has none. -/
  dsn : String := ""
  /-- -1 when unknown. -/
  numa : Int := -1
  blockDevs : List String := []
  inUse : Bool := false
  deriving DecidableEq

/-- `BoundForSPDK`. -/
def NVMe.boundForSPDK (n : NVMe) : Bool := n.driver = "vfio-pci" || n.driver = "uio_pci_generic"

/-- `Sys`: the file system roots. -/
structure Sys where
  root : String := ""
  mounts : String := ""

def Sys.path (s : Sys) (p : String) : String := if s.root = "" then p else s.root ++ p

def pciClassNVMe : String := "0x010802"

/-- The little-endian number at an offset. -/
def uint32At (cfg : List UInt8) (off : Nat) : Nat :=
  let byte (i : Nat) : Nat := (cfg.getD (off + i) 0).toNat
  byte 0 + 2 ^ 8 * byte 1 + 2 ^ 16 * byte 2 + 2 ^ 24 * byte 3

/-- The verb `%08X`. -/
def hex8 (n : Nat) : String :=
  String.ofList (((List.range 8).reverse.map fun i =>
    let d := n / 16 ^ i % 16
    if d < 10 then Char.ofNat (48 + d) else Char.ofNat (55 + d)))

/-- Walk the extended capabilities from `off`, at most `fuel` of them. -/
def findDSN (cfg : List UInt8) : Nat → Nat → String
  | 0, _ => ""
  | fuel + 1, off =>
      if off = 0 ∨ cfg.length < off + 12 then ""
      else
        let hdr := uint32At cfg off
        if hdr % 65536 = 3 then
          let lo := uint32At cfg (off + 4)
          let hi := uint32At cfg (off + 8)
          if lo = 0 ∧ hi = 0 then "" else hex8 hi ++ hex8 lo
        else findDSN cfg fuel (hdr / 2 ^ 20)

def parseDSN (cfg : List UInt8) : String := findDSN cfg 64 0x100

/-- The first of `strings.Fields`. -/
def firstField (line : String) : Option String :=
  let field := (line.toList.dropWhile Text.isSpace).takeWhile fun c => !Text.isSpace c
  if field.isEmpty then none else some (String.ofList field)

/-- The entries one line of the mount table adds. -/
def sourcesOf (line : String) : List String :=
  match firstField line with
  | none => []
  | some source =>
      -- /dev/nvme0n1p1 mounted -> nvme0n1 in use
      match Text.beforeLast source 'p' with
      | some disk => if disk = "" then [source] else [source, disk]
      | none => [source]

/-- `mountedSources`; the path does not go through `path`. -/
def mountedSources (s : Sys) (v : View) : List String :=
  match v.lines (if s.mounts = "" then "/proc/mounts" else s.mounts) with
  | none => []
  | some lines => lines.flatMap sourcesOf

/-- The pattern `nvme*n*`. -/
def isNamespace (name : String) : Bool :=
  Text.hasPrefix name "nvme" && 'n' ∈ name.toList.drop 4

/-- The namespaces of a controller: the pattern `nvme/nvme*/nvme*n*`. -/
def PciDevice.namespaces (d : PciDevice) : List BlockDir :=
  (d.controllers.filter fun c => Text.hasPrefix c.1 "nvme").flatMap fun c =>
    c.2.filter fun b => isNamespace b.name

/-- The partitions of a namespace: the pattern of its name followed by `p*`. -/
def BlockDir.parts (b : BlockDir) : List String :=
  b.entries.filter fun e => Text.hasPrefix e (b.name ++ "p")

/-- The namespace has a partition, a holder or a mount. -/
def BlockDir.inUse (mounted : List String) (b : BlockDir) : Bool :=
  !b.parts.isEmpty || !b.holders.isEmpty || ("/dev/" ++ b.name) ∈ mounted

/-- The class of the device is that of an NVMe controller. -/
def PciDevice.isNVMe (d : PciDevice) : Bool :=
  match d.cls with
  | some cls => Text.trimSpace cls = pciClassNVMe
  | none => false

/-- One device of the loop of `NVMeDevices`. -/
def PciDevice.toNVMe (mounted : List String) (d : PciDevice) : NVMe where
  pci := d.address
  driver := d.driver.getD ""
  dsn := (d.config.map parseDSN).getD ""
  numa := ((d.numaNode.bind fun b => Text.atoi (Text.trimSpace b)).getD (-1))
  blockDevs := d.namespaces.map (·.name)
  inUse := d.namespaces.any (·.inUse mounted)

/-- `NVMeDevices`; `none` when the directory cannot be read. -/
def nvmeDevices (s : Sys) (v : View) : Option (List NVMe) :=
  (v.pci (s.path "/sys/bus/pci/devices")).map fun bus =>
    ((bus.devices.filter (·.isNVMe)).map (·.toNVMe (mountedSources s v))).insertionSort
      fun a b => a.pci ≤ b.pci

/-- The result of `Classify`. -/
structure Classes where
  bound : List NVMe
  candidates : List NVMe
  skipped : List NVMe

/-- `Classify`. -/
def classify (devs : List NVMe) : Classes where
  bound := devs.filter (·.boundForSPDK)
  candidates := devs.filter fun d => !d.boundForSPDK && !d.inUse
  skipped := devs.filter fun d => !d.boundForSPDK && d.inUse

/-- The controllers a pass of hostprep prepares for SPDK. -/
def prepared (s : Sys) (v : View) : List NVMe :=
  ((nvmeDevices s v).map fun devs => (classify devs).candidates).getD []

/-! ## Drives in use -/

/-- The line of a mount table has the namespace or one of its partitions as source. -/
def BlockDir.mountedBy (b : BlockDir) (line : String) : Bool :=
  match firstField line with
  | none => false
  | some source =>
      let disk := "/dev/" ++ b.name
      source = disk || (Text.hasPrefix source (disk ++ "p") &&
        Text.isDigits (source.toList.drop (disk ++ "p").toList.length))

/-- A namespace of the controller has a partition, has a holder, or is mounted by the
table. -/
def PciDevice.usedUnder (mounts : List String) (d : PciDevice) : Bool :=
  d.namespaces.any fun b =>
    !b.parts.isEmpty || !b.holders.isEmpty || mounts.any fun line => b.mountedBy line

/-- No controller the host uses is prepared for SPDK; `mounts` is the host's table. -/
def SparesUsed (s : Sys) (v : View) (mounts : List String) : Prop :=
  ∀ bus, v.pci (s.path "/sys/bus/pci/devices") = some bus → ∀ d ∈ bus.devices,
    d.isNVMe = true → d.usedUnder mounts = true → ∀ n ∈ prepared s v, n.pci ≠ d.address

/-- The kernel drives the controller. -/
def PciDevice.kernelBound (d : PciDevice) : Bool :=
  d.driver ≠ some "vfio-pci" && d.driver ≠ some "uio_pci_generic"

/-- Every controller the kernel drives and the host has mounted shows it to hostprep: by a
partition or a holder in sysfs, or in the mount table hostprep reads. -/
def ShowsMounts (s : Sys) (v : View) (mounts : List String) : Prop :=
  ∀ bus, v.pci (s.path "/sys/bus/pci/devices") = some bus → ∀ d ∈ bus.devices,
    d.isNVMe = true → d.kernelBound = true →
    (∃ b ∈ d.namespaces, ∃ line ∈ mounts, b.mountedBy line = true) →
    ∃ b ∈ d.namespaces,
      b.parts ≠ [] ∨ b.holders ≠ [] ∨ ("/dev/" ++ b.name) ∈ mountedSources s v

theorem mem_prepared {s : Sys} {v : View} {bus : PciBus}
    (hbus : v.pci (s.path "/sys/bus/pci/devices") = some bus) {n : NVMe} :
    n ∈ prepared s v ↔ ∃ d ∈ bus.devices, d.isNVMe = true ∧ d.toNVMe (mountedSources s v) = n ∧
      n.boundForSPDK = false ∧ n.inUse = false := by
  simp only [prepared, nvmeDevices, hbus, Option.map_some, Option.getD_some, classify,
    List.mem_filter, List.mem_insertionSort, List.mem_map, Bool.and_eq_true, Bool.not_eq_true']
  constructor
  · rintro ⟨⟨d, ⟨hd, hcls⟩, heq⟩, hbound, huse⟩
    exact ⟨d, hd, hcls, heq, hbound, huse⟩
  · rintro ⟨d, hd, hcls, heq, hbound, huse⟩
    exact ⟨⟨d, ⟨hd, hcls⟩, heq⟩, hbound, huse⟩

theorem boundForSPDK_eq_true {n : NVMe} :
    n.boundForSPDK = true ↔ n.driver = "vfio-pci" ∨ n.driver = "uio_pci_generic" := by
  simp [NVMe.boundForSPDK]

theorem boundForSPDK_toNVMe (mounted : List String) (d : PciDevice) :
    (d.toNVMe mounted).boundForSPDK = !d.kernelBound := by
  have hdriver : (d.toNVMe mounted).driver = d.driver.getD "" := rfl
  rw [Bool.eq_iff_iff, boundForSPDK_eq_true, hdriver]
  simp only [PciDevice.kernelBound, Bool.not_eq_true', Bool.and_eq_false_iff,
    decide_eq_false_iff_not, not_not]
  cases d.driver <;> simp

theorem inUse_toNVMe {mounted : List String} {d : PciDevice} :
    (d.toNVMe mounted).inUse = true ↔
      ∃ b ∈ d.namespaces, b.parts ≠ [] ∨ b.holders ≠ [] ∨ ("/dev/" ++ b.name) ∈ mounted := by
  simp [PciDevice.toNVMe, BlockDir.inUse, or_assoc]

theorem usedUnder_eq_true {mounts : List String} {d : PciDevice} :
    d.usedUnder mounts = true ↔ ∃ b ∈ d.namespaces,
      b.parts ≠ [] ∨ b.holders ≠ [] ∨ ∃ line ∈ mounts, b.mountedBy line = true := by
  simp [PciDevice.usedUnder, or_assoc]

/-- The name of the disk before the last `p` of a partition is the disk. -/
theorem beforeLast_partition {disk : List Char} {digits : List Char}
    (hdigits : Text.isDigits digits = true) :
    Text.beforeLast (String.ofList (disk ++ 'p' :: digits)) 'p' = some (String.ofList disk) := by
  have hp : 'p' ∉ digits := by
    intro hmem
    simp only [Text.isDigits, Bool.and_eq_true, List.all_eq_true] at hdigits
    exact absurd (hdigits.2 _ hmem) (by decide)
  have hreverse : (disk ++ 'p' :: digits).reverse = digits.reverse ++ 'p' :: disk.reverse := by simp
  rw [Text.beforeLast, String.toList_ofList, hreverse,
    Text.cutChars_append fun h => hp (List.mem_reverse.mp h)]
  simp

/-- A line that mounts the namespace or a partition of it marks the namespace. -/
theorem mem_sourcesOf_of_mountedBy {b : BlockDir} {line : String} (h : b.mountedBy line = true) :
    ("/dev/" ++ b.name) ∈ sourcesOf line := by
  unfold BlockDir.mountedBy at h
  unfold sourcesOf
  cases hfield : firstField line with
  | none => simp [hfield] at h
  | some source =>
      simp only [hfield, Bool.or_eq_true, decide_eq_true_eq, Bool.and_eq_true] at h ⊢
      rcases h with rfl | ⟨hstart, hdigits⟩
      · split
        · split <;> simp
        · simp
      · obtain ⟨rest, hrest⟩ : ("/dev/" ++ b.name ++ "p").toList <+: source.toList := by
          simpa [Text.hasPrefix] using hstart
        rw [← hrest, List.drop_left] at hdigits
        have hsource : source =
            String.ofList (("/dev/" ++ b.name).toList ++ 'p' :: rest) := by
          rw [← String.toList_inj, ← hrest]
          simp
        rw [hsource, beforeLast_partition hdigits, String.ofList_toList]
        have hne : "/dev/" ++ b.name ≠ "" := by
          intro hempty
          have hchars := congrArg String.toList hempty
          simp at hchars
        simp [hne]

/-- Where hostprep reads the table of the host, every mount shows. -/
theorem showsMounts_of_table {s : Sys} {v : View} {mounts : List String}
    (h : v.lines (if s.mounts = "" then "/proc/mounts" else s.mounts) = some mounts) :
    ShowsMounts s v mounts := by
  rintro bus - d - - - ⟨b, hb, line, hline, hmounted⟩
  refine ⟨b, hb, .inr (.inr ?_)⟩
  rw [mountedSources, h]
  exact List.mem_flatMap.mpr ⟨line, hline, mem_sourcesOf_of_mountedBy hmounted⟩

/-- A used controller is spared for certain only where the mount that uses it can be seen
from the container. -/
theorem sparesUsed_iff (s : Sys) (v : View) (mounts : List String) :
    SparesUsed s v mounts ↔ ShowsMounts s v mounts := by
  constructor
  · intro hspares bus hbus d hd hcls hkernel hmounted
    by_contra hhidden
    have hused : d.usedUnder mounts = true := by
      obtain ⟨b, hb, hline⟩ := hmounted
      exact usedUnder_eq_true.mpr ⟨b, hb, .inr (.inr hline)⟩
    refine hspares bus hbus d hd hcls hused (d.toNVMe (mountedSources s v)) ?_ rfl
    refine (mem_prepared hbus).mpr ⟨d, hd, hcls, rfl, ?_, ?_⟩
    · rw [boundForSPDK_toNVMe, hkernel]
      rfl
    · rwa [← Bool.not_eq_true, inUse_toNVMe]
  · intro hshows bus hbus d hd hcls hused n hn haddress
    obtain ⟨d', hd', -, rfl, hbound, huse⟩ := (mem_prepared hbus).mp hn
    obtain rfl : d' = d := List.inj_on_of_nodup_map bus.distinct hd' hd haddress
    rw [boundForSPDK_toNVMe, Bool.not_eq_false'] at hbound
    rw [← Bool.not_eq_true, inUse_toNVMe] at huse
    obtain ⟨b, hb, hparts | hholders | hline⟩ := usedUnder_eq_true.mp hused
    · exact huse ⟨b, hb, .inl hparts⟩
    · exact huse ⟨b, hb, .inr (.inl hholders)⟩
    · exact huse (hshows bus hbus d' hd hcls hbound ⟨b, hb, hline⟩)

/-- A drive of the host with a file system on the whole disk. -/
def dataDrive : PciDevice where
  address := "0000:5e:00.0"
  cls := some "0x010802"
  driver := some "nvme"
  controllers := [("nvme0", [{ name := "nvme0n1" }])]

/-- The host's sysfs under `/host`, and a container with a mount table of its own. -/
def containerView : View where
  pci path := if path = "/host/sys/bus/pci/devices" then some ⟨[dataDrive], by decide⟩ else none
  lines path := if path = "/proc/mounts" then some ["overlay / overlay rw 0 0"] else none

/-- A mounted drive without partitions is prepared for SPDK. -/
theorem prepared_mounted_drive :
    (prepared ⟨"/host", ""⟩ containerView).map (·.pci) = ["0000:5e:00.0"] ∧
      ¬SparesUsed ⟨"/host", ""⟩ containerView ["/dev/nvme0n1 /data xfs rw 0 0"] := by
  have hprepared : (prepared ⟨"/host", ""⟩ containerView).map (·.pci) = ["0000:5e:00.0"] := by
    decide +kernel
  refine ⟨hprepared, fun hspares => ?_⟩
  have hmem : "0000:5e:00.0" ∈ (prepared ⟨"/host", ""⟩ containerView).map (·.pci) := by
    rw [hprepared]
    exact List.mem_cons_self
  obtain ⟨n, hn, haddress⟩ := List.mem_map.mp hmem
  exact hspares ⟨[dataDrive], by decide⟩ rfl dataDrive List.mem_cons_self (by decide +kernel)
    (by decide +kernel) n hn haddress

end DaosOperator.Hostprep
