import Mathlib.Algebra.Group.Nat.Defs
import Mathlib.Data.List.AList

/-!
# Address pool

The addresses that `caiman-cni` hands out, kept as a JSON object from VM ids to
dotted addresses. An address is taken for free when no entry of the object
parses to it.
-/

namespace Caiman.Cni

/-! ## Dotted addresses -/

def octetText (n : Nat) : List Char := Nat.toDigits 10 n

/-- `Ipv4Addr::to_string` of a 32-bit address. -/
def ipv4Text (addr : Nat) : String :=
  String.ofList (['.'].intercalate
    [octetText (addr / 2 ^ 24 % 256), octetText (addr / 2 ^ 16 % 256),
      octetText (addr / 2 ^ 8 % 256), octetText (addr % 256)])

/-- One to three digits, no leading zero, at most 255. -/
def parseOctet (cs : List Char) : Option Nat :=
  if cs = [] ∨ 3 < cs.length ∨ cs.all Char.isDigit = false ∨ (1 < cs.length ∧ cs.head? = some '0')
  then none
  else
    let n := cs.foldl (fun n c => 10 * n + (c.toNat - '0'.toNat)) 0
    if n ≤ 255 then some n else none

/-- `str::parse::<Ipv4Addr>`, as the 32-bit address. -/
def parseIpv4 (s : String) : Option Nat :=
  match (s.toList.splitOn '.').mapM parseOctet with
  | some [a, b, c, d] => some (a * 2 ^ 24 + b * 2 ^ 16 + c * 2 ^ 8 + d)
  | _ => none

theorem octet_facts : ∀ n < 256, parseOctet (octetText n) = some n ∧ '.' ∉ octetText n := by
  decide +kernel

theorem parseIpv4_ipv4Text {addr : Nat} (h : addr < 2 ^ 32) :
    parseIpv4 (ipv4Text addr) = some addr := by
  have hoctet : ∀ n, parseOctet (octetText (n % 256)) = some (n % 256) := fun n =>
    (octet_facts _ (Nat.mod_lt _ (by decide))).1
  have hdot : ∀ n, '.' ∉ octetText (n % 256) := fun n =>
    (octet_facts _ (Nat.mod_lt _ (by decide))).2
  unfold parseIpv4 ipv4Text
  rw [String.toList_ofList, List.splitOn_intercalate _ (by simp [hdot]) (by simp)]
  simp only [List.mapM_cons, List.mapM_nil, hoctet, Option.pure_def, Option.bind_eq_bind,
    Option.bind_some, Option.some.injEq]
  omega

/-! ## Allocation -/

abbrev Allocations := AList fun _ : String => String

def subnet : String := "10.100.0.0/24"

def gateway : Nat := 0x0A640001

def ipStart : Nat := 0x0A640002

def ipEnd : Nat := 0x0A6400FE

structure AllocatedIp where
  ip : String
  gateway : String
  subnet : String
  prefixLen : Nat
  deriving DecidableEq, Repr

def allocatedIp (ip : String) : AllocatedIp := ⟨ip, ipv4Text gateway, subnet, 24⟩

/-- A file that is missing, unreadable or no JSON object loads as the empty table. -/
def loadAllocations (file : Option Allocations) : Allocations := file.getD ∅

def used (allocs : Allocations) : List Nat := allocs.entries.filterMap fun e => parseIpv4 e.2

/-- The pool, from `IP_START` to `IP_END` inclusive. -/
def pool : List Nat := List.range' ipStart (ipEnd + 1 - ipStart)

/-- `allocate` on the table it loaded: the answer and, for a new address, the table
it saves before it answers. -/
def allocate (allocs : Allocations) (vmId : String) :
    Except String (AllocatedIp × Option Allocations) :=
  match allocs.lookup vmId with
  | some ip => .ok (allocatedIp ip, none)
  | none =>
      match pool.find? fun ip => decide (ip ∉ used allocs) with
      | none => .error "IPAM pool exhausted -- no free IPs in 10.100.0.0/24"
      | some next =>
          .ok (allocatedIp (ipv4Text next), some (allocs.insert vmId (ipv4Text next)))

/-- `release` on the table it loaded: the table it saves. -/
def release (allocs : Allocations) (vmId : String) : Allocations := allocs.erase vmId

/-- The address in the CNI result, read from the file once more. -/
def resultAddress (file : Option Allocations) (vmId : String) : String :=
  ((loadAllocations file).lookup vmId).getD "10.100.0.2" ++ "/24"

/-! ## What an allocation does -/

def Distinct (allocs : Allocations) : Prop :=
  ∀ p q ip, allocs.lookup p = some ip → allocs.lookup q = some ip → p = q

theorem distinct_empty : Distinct ∅ := by
  intro p q ip hp
  simp at hp

theorem Distinct.erase {allocs : Allocations} (h : Distinct allocs) (vmId : String) :
    Distinct (allocs.erase vmId) := by
  have hlookup : ∀ p ip, (allocs.erase vmId).lookup p = some ip → allocs.lookup p = some ip := by
    intro p ip hp
    by_cases hvm : p = vmId
    · rw [hvm, AList.lookup_erase] at hp
      cases hp
    · rwa [AList.lookup_erase_ne hvm] at hp
  intro p q ip hp hq
  exact h p q ip (hlookup p ip hp) (hlookup q ip hq)

theorem Distinct.insert {allocs : Allocations} (h : Distinct allocs) {vmId ip : String}
    (hfree : ∀ p, allocs.lookup p ≠ some ip) : Distinct (allocs.insert vmId ip) := by
  have hother : ∀ p x, p ≠ vmId → (allocs.insert vmId ip).lookup p = some x →
      allocs.lookup p = some x := by
    intro p x hvm hp
    rwa [AList.lookup_insert_ne hvm] at hp
  have hown : ∀ p, (allocs.insert vmId ip).lookup p = some ip → p = vmId := by
    intro p hp
    by_contra hvm
    exact hfree p (hother p ip hvm hp)
  intro p q x hp hq
  by_cases hpvm : p = vmId
  · subst hpvm
    rw [AList.lookup_insert] at hp
    cases hp
    exact (hown q hq).symm
  · by_cases hqvm : q = vmId
    · subst hqvm
      rw [AList.lookup_insert] at hq
      cases hq
      exact hown p hp
    · exact h p q x (hother p x hpvm hp) (hother q x hqvm hq)

theorem mem_used {allocs : Allocations} {p : String} {addr : Nat} (haddr : addr < 2 ^ 32)
    (hp : allocs.lookup p = some (ipv4Text addr)) : addr ∈ used allocs := by
  have hentry : (⟨p, ipv4Text addr⟩ : Σ _ : String, String) ∈ allocs.entries :=
    AList.mem_lookup_iff.mp hp
  exact List.mem_filterMap.mpr ⟨_, hentry, parseIpv4_ipv4Text haddr⟩

/-- What `allocate` answers: the address the table has, or one that no entry of the
table has together with the table that records it. -/
theorem allocate_ok {allocs : Allocations} {vmId : String} {reply : AllocatedIp}
    {saved : Option Allocations} (h : allocate allocs vmId = .ok (reply, saved)) :
    (allocs.lookup vmId = some reply.ip ∧ saved = none) ∨
      (saved = some (allocs.insert vmId reply.ip) ∧ ∀ p, allocs.lookup p ≠ some reply.ip) := by
  unfold allocate at h
  split at h
  · rename_i ip hip
    cases h
    exact Or.inl ⟨hip, rfl⟩
  · split at h
    · cases h
    · rename_i next hnext
      cases h
      refine Or.inr ⟨rfl, ?_⟩
      intro p hp
      have hrange : next < 2 ^ 32 := by
        have hmem := List.mem_range'_1.mp (List.mem_of_find?_eq_some hnext)
        simp only [ipStart, ipEnd] at hmem
        omega
      have hunused := List.find?_some hnext
      exact (of_decide_eq_true hunused) (mem_used hrange hp)

theorem allocate_isOk_iff {allocs : Allocations} {vmId : String} :
    (allocate allocs vmId).isOk = false ↔ vmId ∉ allocs ∧ ∀ ip ∈ pool, ip ∈ used allocs := by
  unfold allocate
  split
  · rename_i ip hip
    have hmem : vmId ∈ allocs := by
      rw [← AList.lookup_isSome, hip]
      rfl
    simp [Except.isOk, Except.toBool, hmem]
  · rename_i hnone
    rw [AList.lookup_eq_none] at hnone
    split
    · rename_i hfind
      simpa [Except.isOk, Except.toBool, hnone] using hfind
    · rename_i next hnext
      have hfree := List.find?_some hnext
      have hpool := List.mem_of_find?_eq_some hnext
      simp only [Except.isOk, Except.toBool, Bool.true_eq_false, false_iff, not_and]
      intro _ hused
      exact of_decide_eq_true hfree (hused next hpool)

end Caiman.Cni
