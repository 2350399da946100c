import Mathlib.Data.List.Perm.Subperm
import Mathlib.Data.Fintype.EquivFin
import Caiman.Lib.Run
import Caiman.Cni.Ipam

/-!
# Sequential allocation

One request at a time, with a file that is read and written. The table is an injective map
into the pool, an id that has no address gets the smallest one that is free, and an address
that is released is free again.
-/

namespace Caiman.Cni

open Lib

inductive IpamCall
  | allocate (vmId : String)
  | release (vmId : String)
  deriving DecidableEq

/-- Each call reads the file, and writes it when it has something to save. -/
def allocator : Machine (Option Allocations) IpamCall (Except String AllocatedIp) where
  step file
    | .allocate vmId =>
        match allocate (loadAllocations file) vmId with
        | .error e => (file, [.error e])
        | .ok (reply, none) => (file, [.ok reply])
        | .ok (reply, some table) => (some table, [.ok reply])
    | .release vmId => (some (release (loadAllocations file) vmId), [])

/-- An injective map into the pool. -/
structure Pooled (allocs : Allocations) : Prop where
  distinct : Distinct allocs
  inPool : ∀ p ip, allocs.lookup p = some ip → ∃ addr ∈ pool, ip = ipv4Text addr

def Free (allocs : Allocations) (addr : Nat) : Prop := ∀ p, allocs.lookup p ≠ some (ipv4Text addr)

variable {allocs : Allocations} {addr : Nat} {vmId : String}

theorem lt_of_mem_pool (h : addr ∈ pool) : addr < 2 ^ 32 := by
  have hrange := List.mem_range'_1.mp h
  simp only [ipStart, ipEnd] at hrange
  omega

theorem ipv4Text_injective {x y : Nat} (hx : x < 2 ^ 32) (hy : y < 2 ^ 32)
    (h : ipv4Text x = ipv4Text y) : x = y := by
  have hparsed := parseIpv4_ipv4Text hx
  rw [h, parseIpv4_ipv4Text hy, Option.some.injEq] at hparsed
  exact hparsed.symm

theorem pooled_empty : Pooled ∅ := ⟨distinct_empty, fun _ _ h => by simp at h⟩

theorem Pooled.mem_used_iff (h : Pooled allocs) (haddr : addr ∈ pool) :
    addr ∈ used allocs ↔ ¬ Free allocs addr := by
  constructor
  · intro hused
    obtain ⟨e, he, hparse⟩ := List.mem_filterMap.mp hused
    have hlookup : allocs.lookup e.1 = some e.2 := AList.mem_lookup_iff.mpr he
    obtain ⟨x, hx, htext⟩ := h.inPool _ _ hlookup
    rw [htext, parseIpv4_ipv4Text (lt_of_mem_pool hx), Option.some.injEq] at hparse
    intro hfree
    exact hfree e.1 (by rw [hlookup, htext, hparse])
  · intro hheld
    rw [Free] at hheld
    push Not at hheld
    obtain ⟨p, hp⟩ := hheld
    exact mem_used (lt_of_mem_pool haddr) hp

theorem Pooled.used_subset (h : Pooled allocs) : used allocs ⊆ pool := by
  intro x hx
  obtain ⟨e, he, hparse⟩ := List.mem_filterMap.mp hx
  obtain ⟨y, hy, htext⟩ := h.inPool e.1 e.2 (AList.mem_lookup_iff.mpr he)
  rw [htext, parseIpv4_ipv4Text (lt_of_mem_pool hy), Option.some.injEq] at hparse
  exact hparse ▸ hy

theorem Pooled.used_nodup (h : Pooled allocs) :
    (used allocs).Nodup ∧ (used allocs).length = allocs.entries.length := by
  have hparse : ∀ e ∈ allocs.entries, ∃ x ∈ pool, e.2 = ipv4Text x ∧ parseIpv4 e.2 = some x := by
    intro e he
    obtain ⟨x, hx, htext⟩ := h.inPool e.1 e.2 (AList.mem_lookup_iff.mpr he)
    exact ⟨x, hx, htext, by rw [htext, parseIpv4_ipv4Text (lt_of_mem_pool hx)]⟩
  have hmap : used allocs = allocs.entries.map fun e => (parseIpv4 e.2).getD 0 := by
    rw [used, ← List.filterMap_eq_map]
    refine List.filterMap_congr ?_
    intro e he
    obtain ⟨x, -, -, hx⟩ := hparse e he
    rw [Function.comp_apply, hx, Option.getD_some]
  refine ⟨?_, by rw [hmap, List.length_map]⟩
  rw [hmap]
  refine List.Nodup.map_on ?_ allocs.nodupKeys.nodup
  intro e he e' he' hsame
  obtain ⟨x, -, htext, hx⟩ := hparse e he
  obtain ⟨x', -, htext', hx'⟩ := hparse e' he'
  rw [hx, hx', Option.getD_some, Option.getD_some] at hsame
  have hkey : e.1 = e'.1 := by
    refine h.distinct e.1 e'.1 e.2 (AList.mem_lookup_iff.mpr he) ?_
    rw [htext, hsame, ← htext']
    exact AList.mem_lookup_iff.mpr he'
  obtain ⟨p, ip⟩ := e
  obtain ⟨p', ip'⟩ := e'
  dsimp only at hkey htext htext'
  rw [hkey, htext, htext', hsame]

theorem Pooled.exhausted_iff (h : Pooled allocs) :
    (∀ addr ∈ pool, addr ∈ used allocs) ↔ allocs.entries.length = 253 := by
  obtain ⟨hnodup, hlen⟩ := h.used_nodup
  have hpool : pool.Nodup ∧ pool.length = 253 := ⟨List.nodup_range', List.length_range'⟩
  have hsub := List.subperm_of_subset hnodup h.used_subset
  rw [← hlen, ← hpool.2]
  constructor
  · intro hall
    exact Nat.le_antisymm hsub.length_le (List.subperm_of_subset hpool.1 hall).length_le
  · intro hsame addr haddr
    exact (hsub.perm_of_length_le hsame.ge).mem_iff.mpr haddr

def IsFirstFree (allocs : Allocations) (addr : Nat) : Prop :=
  addr ∈ pool ∧ Free allocs addr ∧ ∀ x ∈ pool, Free allocs x → addr ≤ x

theorem Pooled.allocate_new (h : Pooled allocs) (hnew : allocs.lookup vmId = none) :
    (allocs.entries.length = 253 ∧ ∃ e, allocate allocs vmId = .error e) ∨
      (allocs.entries.length ≠ 253 ∧ ∃ addr, IsFirstFree allocs addr ∧
        allocate allocs vmId =
          .ok (allocatedIp (ipv4Text addr), some (allocs.insert vmId (ipv4Text addr)))) := by
  cases hfind : pool.find? fun ip => decide (ip ∉ used allocs) with
  | none =>
      refine Or.inl ⟨h.exhausted_iff.mp ?_, ?_⟩
      · simpa using hfind
      · refine ⟨"IPAM pool exhausted -- no free IPs in 10.100.0.0/24", ?_⟩
        simp only [allocate, hnew, hfind]
  | some addr =>
      have haddr := List.mem_of_find?_eq_some hfind
      have hunused : addr ∉ used allocs := by simpa using List.find?_some hfind
      have hfree (x : Nat) (hx : x ∈ pool) : Free allocs x ↔ x ∉ used allocs := by
        rw [h.mem_used_iff hx, not_not]
      refine Or.inr ⟨?_, addr, ⟨haddr, (hfree addr haddr).mpr hunused, ?_⟩, ?_⟩
      · exact fun hlen => hunused (h.exhausted_iff.mpr hlen addr haddr)
      · intro x hx hxfree
        by_contra hlt
        have hbefore := (List.find?_range'_eq_some.mp hfind).2.2 x (List.mem_range'_1.mp hx).1
          (Nat.not_le.mp hlt)
        have hxunused := (hfree x hx).mp hxfree
        simp [hxunused] at hbefore
      · simp only [allocate, hnew, hfind]

theorem Pooled.insert (h : Pooled allocs) (haddr : addr ∈ pool) (hfree : Free allocs addr)
    (vmId : String) : Pooled (allocs.insert vmId (ipv4Text addr)) := by
  refine ⟨h.distinct.insert hfree, ?_⟩
  intro p ip hp
  by_cases hvm : p = vmId
  · rw [hvm, AList.lookup_insert, Option.some.injEq] at hp
    exact ⟨addr, haddr, hp.symm⟩
  · rw [AList.lookup_insert_ne hvm] at hp
    exact h.inPool p ip hp

theorem lookup_release (allocs : Allocations) (vmId q : String) :
    (release allocs vmId).lookup q = if q = vmId then none else allocs.lookup q := by
  by_cases hq : q = vmId
  · rw [release, hq, AList.lookup_erase, if_pos rfl]
  · rw [release, AList.lookup_erase_ne hq, if_neg hq]

theorem Pooled.release (h : Pooled allocs) (vmId : String) : Pooled (release allocs vmId) := by
  refine ⟨h.distinct.erase vmId, ?_⟩
  intro p ip hp
  rw [lookup_release] at hp
  split at hp
  · cases hp
  · exact h.inPool p ip hp

theorem allocator_pooled (file : Option Allocations) (call : IpamCall)
    (h : Pooled (loadAllocations file)) :
    Pooled (loadAllocations (allocator.step file call).1) := by
  cases call with
  | release vmId => exact h.release vmId
  | allocate vmId =>
      cases hlookup : (loadAllocations file).lookup vmId with
      | some ip => simpa only [allocator, allocate, hlookup] using h
      | none =>
          rcases h.allocate_new hlookup with ⟨-, e, hfail⟩ | ⟨-, addr, hfirst, hok⟩
          · simpa only [allocator, hfail] using h
          · simp only [allocator, hok]
            exact h.insert hfirst.1 hfirst.2.1 vmId

/-! ## Handing out again -/

/-- New ids that are added one after the other, the last of them with this address. -/
def HandsOut (file : Option Allocations) (ip : String) : Prop :=
  ∃ vmIds : List String, (∀ vmId ∈ vmIds, (loadAllocations file).lookup vmId = none) ∧
    (allocator.run file (vmIds.map .allocate)).2.getLast? = some (.ok (allocatedIp ip))

theorem exists_new_id (allocs : Allocations) : ∃ vmId, allocs.lookup vmId = none := by
  have hinfinite : Infinite String :=
    Infinite.of_injective (fun n => String.ofList (List.replicate n 'x')) fun m n h => by
      have hlen := congrArg (fun s => s.toList.length) h
      simpa using hlen
  obtain ⟨vmId, hnew⟩ := Infinite.exists_notMem_finset allocs.keys.toFinset
  refine ⟨vmId, AList.lookup_eq_none.mpr ?_⟩
  rwa [List.mem_toFinset] at hnew

theorem Pooled.not_exhausted (h : Pooled allocs) (haddr : addr ∈ pool) (hfree : Free allocs addr) :
    allocs.entries.length ≠ 253 := fun hfull =>
  (h.mem_used_iff haddr).mp (h.exhausted_iff.mpr hfull addr haddr) hfree

theorem Free.insert (h : Free allocs addr) (haddr : addr ∈ pool) {first : Nat}
    (hfirst : first ∈ pool) (hne : first ≠ addr) (vmId : String) : Free (allocs.insert vmId (ipv4Text first)) addr := by
  intro p hp
  by_cases hvm : p = vmId
  · rw [hvm, AList.lookup_insert, Option.some.injEq] at hp
    exact hne (ipv4Text_injective (lt_of_mem_pool hfirst) (lt_of_mem_pool haddr) hp)
  · rw [AList.lookup_insert_ne hvm] at hp
    exact h p hp

theorem Free.of_insert {first : Nat} (hnew : allocs.lookup vmId = none)
    (h : Free (allocs.insert vmId (ipv4Text first)) addr) : Free allocs addr ∧ addr ≠ first := by
  constructor
  · intro p hp
    by_cases hvm : p = vmId
    · rw [hvm, hnew] at hp
      cases hp
    · exact h p ((AList.lookup_insert_ne hvm).trans hp)
  · rintro rfl
    exact h vmId (AList.lookup_insert allocs)

section

variable {file : Option Allocations} {first : Nat}

theorem HandsOut.of_first (hnew : (loadAllocations file).lookup vmId = none)
    (hok : allocate (loadAllocations file) vmId = .ok (allocatedIp (ipv4Text first),
      some ((loadAllocations file).insert vmId (ipv4Text first)))) :
    HandsOut file (ipv4Text first) := by
  refine ⟨[vmId], by simpa using hnew, ?_⟩
  simp only [List.map_cons, List.map_nil, Machine.run_cons, Machine.run_nil, allocator, hok]
  rfl

theorem HandsOut.of_next {ip : String} (hnew : (loadAllocations file).lookup vmId = none)
    (hok : allocate (loadAllocations file) vmId = .ok (allocatedIp (ipv4Text first),
      some ((loadAllocations file).insert vmId (ipv4Text first))))
    (h : HandsOut (some ((loadAllocations file).insert vmId (ipv4Text first))) ip) :
    HandsOut file ip := by
  obtain ⟨vmIds, hfresh, hlast⟩ := h
  refine ⟨vmId :: vmIds, ?_, ?_⟩
  · intro id hid
    rcases List.mem_cons.mp hid with rfl | hrest
    · exact hnew
    · have hnone : ((loadAllocations file).insert vmId (ipv4Text first)).lookup id = none :=
        hfresh id hrest
      have hvm : id ≠ vmId := by
        intro heq
        rw [heq, AList.lookup_insert] at hnone
        cases hnone
      exact (AList.lookup_insert_ne hvm).symm.trans hnone
  · simp only [List.map_cons, Machine.run_cons, allocator, hok] at hlast ⊢
    rw [List.getLast?_append, hlast]
    rfl

theorem handsOut_of_free (h : Pooled (loadAllocations file)) (haddr : addr ∈ pool)
    (hfree : Free (loadAllocations file) addr) : HandsOut file (ipv4Text addr) := by
  -- by how far before this address the first free one is, at most
  have hbefore : ∀ n (file : Option Allocations), Pooled (loadAllocations file) →
      Free (loadAllocations file) addr →
      (∀ x ∈ pool, Free (loadAllocations file) x → addr < x + n) →
        HandsOut file (ipv4Text addr) := by
    intro n
    induction n with
    | zero =>
        intro file _ hfree hlow
        exact absurd (hlow addr haddr hfree) (Nat.lt_irrefl addr)
    | succ n ih =>
        intro file h hfree hlow
        obtain ⟨vmId, hnew⟩ := exists_new_id (loadAllocations file)
        rcases h.allocate_new hnew with ⟨hfull, -⟩ | ⟨-, first, ⟨hpool, hunheld, hmin⟩, hok⟩
        · exact absurd hfull (h.not_exhausted haddr hfree)
        · by_cases hsame : first = addr
          · exact hsame ▸ HandsOut.of_first hnew hok
          · refine HandsOut.of_next hnew hok (ih _ (h.insert hpool hunheld vmId)
              (hfree.insert haddr hpool hsame vmId) ?_)
            intro x hx hxfree
            obtain ⟨hold, hne⟩ := Free.of_insert hnew hxfree
            have hnext := hmin x hx hold
            have hfirst := hlow first hpool hunheld
            omega
  exact hbefore (addr + 1) file h hfree fun x _ _ => by omega

end

/-- After any sequence of requests, from no file: the table is an injective map into the pool.
An id that has an address is given it again, and nothing changes. Any other id gets the
smallest free address, or an error that changes nothing when 253 ids have one. A release
frees the address of its own id, which can then be handed out again. -/
theorem sequential_allocation (calls : List IpamCall) :
    let file := (allocator.run none calls).1
    let table := loadAllocations file
    (Distinct table ∧ ∀ p ip, table.lookup p = some ip → ∃ addr ∈ pool, ip = ipv4Text addr) ∧
    (∀ vmId ip, table.lookup vmId = some ip →
      allocator.step file (.allocate vmId) = (file, [.ok (allocatedIp ip)])) ∧
    (∀ vmId, table.lookup vmId = none →
      (table.entries.length = 253 →
        ∃ e, allocator.step file (.allocate vmId) = (file, [.error e])) ∧
      (table.entries.length ≠ 253 → ∃ addr, IsFirstFree table addr ∧
        allocator.step file (.allocate vmId) = (some (table.insert vmId (ipv4Text addr)),
          [.ok (allocatedIp (ipv4Text addr))]))) ∧
    ∀ vmId, let freed := (allocator.step file (.release vmId)).1
      (∀ q, (loadAllocations freed).lookup q = if q = vmId then none else table.lookup q) ∧
        ∀ ip, table.lookup vmId = some ip →
          (∀ q, (loadAllocations freed).lookup q ≠ some ip) ∧ HandsOut freed ip := by
  intro file table
  have hempty : Pooled (loadAllocations none) := pooled_empty
  have hpooled : Pooled table :=
    allocator.run_inductive (I := fun file => Pooled (loadAllocations file)) allocator_pooled
      hempty calls
  refine ⟨⟨hpooled.distinct, hpooled.inPool⟩, ?_, ?_, ?_⟩
  · intro vmId ip hip
    simp only [allocator, allocate, hip, table]
  · intro vmId hnew
    rcases hpooled.allocate_new hnew with ⟨hfull, e, hfail⟩ | ⟨hroom, addr, hfirst, hok⟩
    · refine ⟨fun _ => ⟨e, ?_⟩, fun hroom => absurd hfull hroom⟩
      simp only [allocator, hfail, table]
    · refine ⟨fun hfull => absurd hfull hroom, fun _ => ⟨addr, hfirst, ?_⟩⟩
      simp only [allocator, hok, table]
  · intro vmId
    have hlookup := lookup_release table vmId
    refine ⟨hlookup, ?_⟩
    intro ip hip
    have hgone : ∀ q, (release table vmId).lookup q ≠ some ip := by
      intro q hq
      rw [hlookup] at hq
      split at hq
      · cases hq
      · rename_i hne
        exact hne (hpooled.distinct q vmId ip hq hip)
    obtain ⟨addr, haddr, rfl⟩ := hpooled.inPool vmId ip hip
    exact ⟨hgone, handsOut_of_free (hpooled.release vmId) haddr hgone⟩

end Caiman.Cni
