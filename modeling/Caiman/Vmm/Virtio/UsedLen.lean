import Caiman.Vmm.Virtio.Receive
import Mathlib.Order.Interval.Finset.Nat

/-!
# Used lengths

The `len` of a used element against the bytes the device has put into the device-writable
descriptors of the chain. The block device reports the length of its data descriptor for
every read request, also for one that failed or went nowhere, and the network device reports
what it has read of a TX chain, into which it writes nothing.
-/

namespace Caiman.Vmm

open Lib

/-! ## Copies to guest memory -/

/-- A `write_slice` of the device, by address and data. -/
abbrev Copied := Nat × List UInt8

/-- The addresses a list of writes fills. One that is refused fills none. -/
def filled (mem : GuestMemory) : List Copied → Finset Nat
  | [] => ∅
  | w :: ws =>
      (if mem.Mapped w.1 w.2.length then Finset.Ico w.1 (w.1 + w.2.length) else ∅) ∪ filled mem ws

/-- The bytes the writes put into device-writable descriptors of the chain. -/
def bytesIn (mem : GuestMemory) (chain : List Descriptor) (ws : List Copied) : Nat :=
  ((filled mem ws).filter (InWritable chain)).card

def applyWrites (mem : GuestMemory) (ws : List Copied) : GuestMemory :=
  ws.foldl (fun mem w => mem.store w.1 w.2) mem

variable {mem : GuestMemory} {chain : List Descriptor}

theorem mem_filled {ws : List Copied} {x : Nat} :
    x ∈ filled mem ws ↔ ∃ w ∈ ws, mem.Covers w.1 w.2.length x := by
  induction ws with
  | nil => simp [filled]
  | cons w ws ih =>
      rw [filled, Finset.mem_union, ih, List.exists_mem_cons_iff]
      apply or_congr_left
      by_cases hmapped : mem.Mapped w.1 w.2.length
      · rw [if_pos hmapped, Finset.mem_Ico, GuestMemory.Covers, and_iff_right hmapped]
      · rw [if_neg hmapped]
        exact iff_of_false (Finset.notMem_empty x) fun h => hmapped h.1

theorem filled_congr {mem' : GuestMemory} (hend : mem'.ramEnd = mem.ramEnd) (ws : List Copied) :
    filled mem' ws = filled mem ws := by
  ext x
  simp only [mem_filled, GuestMemory.covers_congr hend]

theorem changesOnly_filled (ws : List Copied) :
    GuestMemory.ChangesOnly (· ∈ filled mem ws) mem (applyWrites mem ws) := by
  induction ws generalizing mem with
  | nil => exact GuestMemory.ChangesOnly.refl _ _
  | cons w ws ih =>
      have hfirst : GuestMemory.ChangesOnly (· ∈ filled mem (w :: ws)) mem (mem.store w.1 w.2) :=
        GuestMemory.ChangesOnly.store _ _ _ fun x hx =>
          mem_filled.mpr ⟨w, List.mem_cons_self, hx⟩
      refine hfirst.trans (ih.mono ?_)
      intro x hx
      rw [filled_congr (GuestMemory.ramEnd_store _ _ _)] at hx
      exact Finset.mem_union_right _ hx

theorem le_bytesIn {ws : List Copied} {a n : Nat}
    (h : ∀ x, a ≤ x → x < a + n → x ∈ filled mem ws ∧ InWritable chain x) :
    n ≤ bytesIn mem chain ws := by
  have hsub : Finset.Ico a (a + n) ⊆ (filled mem ws).filter (InWritable chain) := by
    intro x hx
    obtain ⟨hl, hr⟩ := Finset.mem_Ico.mp hx
    exact Finset.mem_filter.mpr (h x hl hr)
  calc
    n = (Finset.Ico a (a + n)).card := by rw [Nat.card_Ico, Nat.add_sub_cancel_left]
    _ ≤ bytesIn mem chain ws := Finset.card_le_card hsub

theorem bytesIn_le {ws : List Copied} {a n : Nat}
    (h : ∀ x ∈ filled mem ws, InWritable chain x → a ≤ x ∧ x < a + n) :
    bytesIn mem chain ws ≤ n := by
  have hsub : (filled mem ws).filter (InWritable chain) ⊆ Finset.Ico a (a + n) := by
    intro x hx
    obtain ⟨hfilled, hin⟩ := Finset.mem_filter.mp hx
    exact Finset.mem_Ico.mpr (h x hfilled hin)
  calc
    bytesIn mem chain ws ≤ (Finset.Ico a (a + n)).card := Finset.card_le_card hsub
    _ = n := by rw [Nat.card_Ico, Nat.add_sub_cancel_left]

@[simp] theorem bytesIn_nil : bytesIn mem chain [] = 0 := rfl

/-! ## Block requests -/

namespace Blk

def dataWrites (io : Transfer) (image : Image) (reqType : UInt32) (offset : UInt64)
    (d : Descriptor) : List Copied :=
  if reqType = tIn then
    if d.isWrite then
      match readAt image d.len.toNat offset io with
      | some (_, buf) => [(d.addr.toNat, buf)]
      | none => []
    else []
  else if reqType = tGetId then
    if d.isWrite && 20 ≤ d.len then [(d.addr.toNat, deviceId)] else []
  else []

/-- All copies of a request: to its data descriptor, and the status byte. -/
def requestWrites (io : Transfer) (image : Image) (mem : GuestMemory)
    (hdrDesc dataDesc statusDesc : Descriptor) (status : UInt8) : List Copied :=
  dataWrites io image (reqTypeAt mem hdrDesc) (sectorAt mem hdrDesc * sectorSize) dataDesc ++
    [(statusDesc.addr.toNat, [status])]

theorem execute_writes {readOnly : Bool} {io : Transfer} {mem' : GuestMemory}
    {image image' : Image} {reqType : UInt32} {offset : UInt64} {d : Descriptor} {status : UInt8}
    (h : execute readOnly io mem image reqType offset d = .ok (status, mem', image')) :
    mem' = applyWrites mem (dataWrites io image reqType offset d) := by
  have hexec := execute_cases h
  rw [execute_eq] at h
  rw [dataWrites]
  by_cases hin : reqType = tIn
  · rw [if_pos hin] at h ⊢
    by_cases hwrite : d.isWrite = true
    · rw [if_pos hwrite] at h ⊢
      cases hread : readAt image d.len.toNat offset io with
      | none =>
          rw [hread] at h
          cases h
          rfl
      | some pair =>
          rw [hread] at h
          dsimp only at h
          split at h
          · cases h
          · cases h
            rfl
    · rw [if_neg hwrite] at h ⊢
      cases h
      rfl
  rw [if_neg hin] at h ⊢
  by_cases hid : reqType = tGetId
  · have hout : reqType ≠ tOut := by rw [hid]; decide
    have hflush : reqType ≠ tFlush := by rw [hid]; decide
    rw [if_neg hout, if_neg hflush, if_pos hid] at h
    rw [if_pos hid]
    by_cases hroom : (d.isWrite && decide (20 ≤ d.len)) = true
    · rw [if_pos hroom] at h ⊢
      split at h
      · cases h
      · cases h
        rfl
    · rw [if_neg hroom] at h ⊢
      cases h
      rfl
  · rw [if_neg hid]
    cases hexec with
    | read k type => exact absurd type hin
    | getId type => exact absurd type hid
    | write k type => rfl
    | nothing => rfl

theorem Served.writes {readOnly : Bool} {io : Transfer} {mid : GuestMemory} {image : Image}
    {hdrDesc dataDesc statusDesc : Descriptor} {c : Completion}
    (h : Served readOnly io mem image hdrDesc dataDesc statusDesc c mid) :
    c.mem = applyWrites mem (requestWrites io image mem hdrDesc dataDesc statusDesc c.status) := by
  rw [h.after, execute_writes h.executed, requestWrites, applyWrites, applyWrites,
    List.foldl_append]
  rfl

/-- The device-writable bytes of the chain at the status address. -/
def statusBytes (mem : GuestMemory) (chain : List Descriptor) (statusDesc : Descriptor) : Nat :=
  if mem.Mapped statusDesc.addr.toNat 1 ∧ InWritable chain statusDesc.addr.toNat then 1 else 0

theorem bytesIn_status {ws : List Copied} (hnone : ∀ w ∈ ws, ¬ mem.Mapped w.1 w.2.length)
    (statusDesc : Descriptor) (status : UInt8) :
    bytesIn mem chain (ws ++ [(statusDesc.addr.toNat, [status])]) =
      statusBytes mem chain statusDesc := by
  have hfilled : ∀ x, x ∈ filled mem (ws ++ [(statusDesc.addr.toNat, [status])]) ↔
      mem.Mapped statusDesc.addr.toNat 1 ∧ x = statusDesc.addr.toNat := by
    intro x
    rw [mem_filled]
    constructor
    · intro h
      obtain ⟨w, hw, hmapped, hl, hr⟩ := h
      rcases List.mem_append.mp hw with hdata | hstatus
      · exact absurd hmapped (hnone w hdata)
      · rw [List.mem_singleton.mp hstatus] at hmapped hl hr
        exact ⟨hmapped, Nat.le_antisymm (Nat.le_of_lt_succ hr) hl⟩
    · intro h
      obtain ⟨hmapped, rfl⟩ := h
      exact ⟨_, List.mem_append_right _ List.mem_cons_self, hmapped, Nat.le_refl _,
        Nat.lt_succ_self _⟩
  rw [bytesIn, statusBytes]
  by_cases hin : mem.Mapped statusDesc.addr.toNat 1 ∧ InWritable chain statusDesc.addr.toNat
  · rw [if_pos hin, Finset.card_eq_one]
    refine ⟨statusDesc.addr.toNat, ?_⟩
    ext x
    rw [Finset.mem_filter, hfilled, Finset.mem_singleton]
    constructor
    · exact fun h => h.1.2
    · rintro rfl
      exact ⟨⟨hin.1, rfl⟩, hin.2⟩
  · rw [if_neg hin, Finset.card_eq_zero, Finset.filter_eq_empty_iff]
    intro x hx hwritable
    obtain ⟨hmapped, rfl⟩ := (hfilled x).mp hx
    exact hin ⟨hmapped, hwritable⟩

/-- A read request whose data go to a device-writable buffer in RAM, or whose data descriptor
is no longer than what the status byte accounts for. Other requests report no length. -/
def ReadReaches (io : Transfer) (mem : GuestMemory) (chain : List Descriptor)
    (hdrDesc dataDesc statusDesc : Descriptor) : Prop :=
  reqTypeAt mem hdrDesc = tIn →
    (dataDesc.isWrite = true ∧ io.isSome = true ∧
        (sectorAt mem hdrDesc * sectorSize).toNat ≤ isizeMax ∧
        mem.Mapped dataDesc.addr.toNat dataDesc.len.toNat) ∨
      dataDesc.len.toNat ≤ statusBytes mem chain statusDesc

instance (io : Transfer) (mem : GuestMemory) (chain : List Descriptor)
    (hdrDesc dataDesc statusDesc : Descriptor) :
    Decidable (ReadReaches io mem chain hdrDesc dataDesc statusDesc) :=
  inferInstanceAs (Decidable (_ → _))

theorem Served.usedLen_iff {readOnly : Bool} {io : Transfer} {mid : GuestMemory} {image : Image}
    {hdrDesc dataDesc statusDesc : Descriptor} {c : Completion} (hmem : dataDesc ∈ chain)
    (h : Served readOnly io mem image hdrDesc dataDesc statusDesc c mid) :
    c.usedLen.toNat ≤
        bytesIn mem chain (requestWrites io image mem hdrDesc dataDesc statusDesc c.status) ↔
      ReadReaches io mem chain hdrDesc dataDesc statusDesc := by
  rw [h.usedLen, ReadReaches]
  by_cases hin : reqTypeAt mem hdrDesc = tIn
  · rw [if_pos hin, forall_prop_of_true hin]
    by_cases hreach : dataDesc.isWrite = true ∧ io.isSome = true ∧
        (sectorAt mem hdrDesc * sectorSize).toNat ≤ isizeMax ∧
        mem.Mapped dataDesc.addr.toNat dataDesc.len.toNat
    · refine iff_of_true ?_ (Or.inl hreach)
      obtain ⟨hwrite, hio, hseek, hmapped⟩ := hreach
      obtain ⟨k, rfl⟩ := Option.isSome_iff_exists.mp hio
      obtain ⟨n, hread⟩ := readAt_eq image dataDesc.len.toNat k hseek
      have hbuf := readBuf_length image dataDesc.len.toNat
        (sectorAt mem hdrDesc * sectorSize).toNat k
      have hw : (dataDesc.addr.toNat, readBuf image dataDesc.len.toNat
            (sectorAt mem hdrDesc * sectorSize).toNat k) ∈
          requestWrites (some k) image mem hdrDesc dataDesc statusDesc c.status := by
        rw [requestWrites, dataWrites, if_pos hin, if_pos hwrite, hread]
        exact List.mem_cons_self
      refine le_bytesIn fun x hl hr => ⟨mem_filled.mpr ⟨_, hw, ?_⟩, dataDesc, hmem, hwrite, hl, hr⟩
      rw [hbuf]
      exact ⟨hmapped, hl, hr⟩
    · rw [or_iff_right hreach, requestWrites, bytesIn_status]
      intro w hw hmapped
      rw [dataWrites, if_pos hin] at hw
      split at hw
      next hwrite =>
          split at hw
          next n buf hread =>
              obtain ⟨k, rfl, hseek, rfl⟩ := readAt_cases hread
              rw [List.mem_singleton.mp hw, readBuf_length] at hmapped
              exact hreach ⟨hwrite, rfl, hseek, hmapped⟩
          next => cases hw
      next => cases hw
  · rw [if_neg hin]
    exact iff_of_true (Nat.zero_le _) fun h => absurd h hin

def BlkAction.ofGuest : BlkAction → Bool
  | .dataplane _ => false
  | _ => true

theorem run_ofGuest {s : BlkSystem} {mid : List BlkAction} (hmid : ∀ a ∈ mid, a.ofGuest = true) :
    (machine.run s mid).1.pc = s.pc ∧
      ∀ head len added, .used 0 head len added ∉ (machine.run s mid).2 := by
  induction mid generalizing s with
  | nil => simp
  | cons a mid ih =>
      obtain ⟨hpc, hused⟩ := ih (s := (machine.step s a).1) fun b hb =>
        hmid b (List.mem_cons_of_mem a hb)
      rw [Machine.run_cons]
      have hguest := hmid a List.mem_cons_self
      have hfirst : (machine.step s a).1.pc = s.pc ∧
          ∀ head len added, .used 0 head len added ∉ (machine.step s a).2 := by
        cases a with
        | dataplane io => cases hguest
        | mmioRead offset => simp [machine]
        | mmioWrite offset val => simp [machine]
        | store addr data => simp [machine]
      refine ⟨hpc.trans hfirst.1, ?_⟩
      intro head len added hmem
      rcases List.mem_append.mp hmem with hnow | hlater
      · exact hfirst.2 head len added hnow
      · exact hused head len added hlater

theorem used_dataplaneStep {s : BlkSystem} {io : Transfer} {h : UInt16} {len : UInt32}
    {added : Bool} (hused : .used 0 h len added ∈ (s.dataplaneStep io).2) :
    s.pc = .complete h len ∨ ∃ chain, s.pc = .serve h chain ∧ chain.length < 2 ∧ len = 0 := by
  unfold BlkSystem.dataplaneStep at hused
  cases hpc : s.pc with
  | wait =>
      rw [hpc] at hused
      dsimp only at hused
      split at hused <;> cases hused
  | poll =>
      rw [hpc] at hused
      rcases s.pollStep_cases with
        ⟨why, hs⟩ | ⟨-, hs⟩ | ⟨head, q, -, -, -, ⟨why, hs⟩ | ⟨chain, -, hs⟩⟩
      all_goals
        simp only [hs] at hused
        simp at hused
  | serve head chain =>
      rw [hpc] at hused
      rcases s.serveStep_cases io head chain with
        ⟨why, hs⟩ | ⟨added', q, mem, hshort, -, hs⟩ |
          ⟨hdrDesc, dataDesc, rest, rfl, ⟨-, hs⟩ | ⟨c, -, hs⟩⟩
      · simp [hs] at hused
      · simp only [hs, List.mem_singleton, Event.used.injEq, true_and] at hused
        obtain ⟨rfl, rfl, -⟩ := hused
        exact Or.inr ⟨chain, rfl, hshort, rfl⟩
      · simp [hs] at hused
      · simp [hs] at hused
  | complete head usedLen =>
      rw [hpc] at hused
      rcases s.completeStep_cases head usedLen with ⟨why, hs⟩ | ⟨added', q, mem, -, hs⟩
      · simp [hs] at hused
      · simp only [hs, List.mem_cons, Event.used.injEq, true_and, reduceCtorEq, List.not_mem_nil,
          or_false] at hused
        obtain ⟨rfl, rfl, -⟩ := hused
        exact Or.inl rfl
  | inject =>
      rw [hpc] at hused
      simp at hused
  | halted why =>
      rw [hpc] at hused
      cases hused

theorem used_of_request {s : BlkSystem} {head : UInt16} {chain : List Descriptor}
    (hpc : s.pc = .serve head chain) {io io' : Transfer} {mid : List BlkAction}
    (hmid : ∀ a ∈ mid, a.ofGuest = true) {h : UInt16} {len : UInt32} {added : Bool}
    (hused : .used 0 h len added ∈
      (machine.run s (.dataplane io :: mid ++ [.dataplane io'])).2) :
    (chain.length < 2 ∧ len = 0) ∨
      ∃ hdrDesc dataDesc rest c, chain = hdrDesc :: dataDesc :: rest ∧
        Blk.serve s.readOnly io s.mem s.image hdrDesc dataDesc
          (BlkSystem.statusDesc dataDesc rest) = .ok (some c) ∧ len = c.usedLen := by
  rw [List.cons_append, Machine.run_cons, Machine.run_append] at hused
  obtain ⟨hkeep, hquiet⟩ := run_ofGuest (s := (s.dataplaneStep io).1) hmid
  rcases List.mem_append.mp hused with hfirst | hlater
  · rcases used_dataplaneStep hfirst with hcomplete | ⟨chain', hserve, hshort, hlen⟩
    · rw [hpc] at hcomplete
      cases hcomplete
    · rw [hpc] at hserve
      cases hserve
      exact Or.inl ⟨hshort, hlen⟩
  rcases List.mem_append.mp hlater with hmiddle | hlast
  · exact absurd hmiddle (hquiet _ _ _)
  rw [Machine.run_cons, Machine.run_nil, List.append_nil] at hlast
  have hend := used_dataplaneStep hlast
  have hserved : s.dataplaneStep io = s.serveStep io head chain := by
    simp only [BlkSystem.dataplaneStep, hpc]
  have hafter : ((machine.run (s.dataplaneStep io).1 mid).1).pc =
      (s.serveStep io head chain).1.pc := by rw [hkeep, hserved]
  rw [show (machine.step s (.dataplane io)).1 = (s.dataplaneStep io).1 from rfl, hafter] at hend
  rcases s.serveStep_cases io head chain with
    ⟨why, hs⟩ | ⟨added', q, mem, hshort, -, hs⟩ |
      ⟨hdrDesc, dataDesc, rest, rfl, ⟨-, hs⟩ | ⟨c, hc, hs⟩⟩
  · simp [hs] at hend
  · simp [hs] at hend
  · simp [hs] at hend
  · rw [hs] at hend
    simp only [BlkPc.complete.injEq, reduceCtorEq, false_and, exists_false, or_false] at hend
    exact Or.inr ⟨hdrDesc, dataDesc, rest, c, rfl, hc, hend.2.symm⟩

/-- The copies made for a chain that is served. -/
def BlkSystem.writesFor (s : BlkSystem) (io : Transfer) : List Descriptor → List Copied
  | hdrDesc :: dataDesc :: rest =>
      match Blk.serve s.readOnly io s.mem s.image hdrDesc dataDesc (statusDesc dataDesc rest) with
      | .ok (some c) =>
          requestWrites io s.image s.mem hdrDesc dataDesc (statusDesc dataDesc rest) c.status
      | _ => []
  | _ => []

/-- What the reported length of a chain needs. -/
def BlkSystem.Reaches (s : BlkSystem) (io : Transfer) (chain : List Descriptor) : Prop :=
  match chain with
  | hdrDesc :: dataDesc :: rest =>
      ReadReaches io s.mem chain hdrDesc dataDesc (statusDesc dataDesc rest)
  | _ => True

/-- Serving a request leaves memory as its copies make it, and so changes only what they
fill. -/
theorem serveStep_writes {s : BlkSystem} {io : Transfer} {head : UInt16}
    {chain : List Descriptor} {usedLen : UInt32}
    (h : (s.serveStep io head chain).1.pc = .complete head usedLen) :
    (s.serveStep io head chain).1.mem = applyWrites s.mem (s.writesFor io chain) ∧
      GuestMemory.ChangesOnly (· ∈ filled s.mem (s.writesFor io chain)) s.mem
        (s.serveStep io head chain).1.mem := by
  rcases s.serveStep_cases io head chain with
    ⟨why, hs⟩ | ⟨added, q, mem, hshort, -, hs⟩ |
      ⟨hdrDesc, dataDesc, rest, rfl, ⟨-, hs⟩ | ⟨c, hc, hs⟩⟩
  · simp [hs] at h
  · simp [hs] at h
  · simp [hs] at h
  · obtain ⟨mid, hserved⟩ := serve_served hc
    rw [hs, BlkSystem.writesFor, hc, hserved.writes]
    exact ⟨rfl, changesOnly_filled _⟩

theorem usedLen_iff {s : BlkSystem} {head : UInt16} {chain : List Descriptor}
    (hpc : s.pc = .serve head chain) {io io' : Transfer} {mid : List BlkAction}
    (hmid : ∀ a ∈ mid, a.ofGuest = true) {h : UInt16} {len : UInt32} {added : Bool}
    (hused : .used 0 h len added ∈
      (machine.run s (.dataplane io :: mid ++ [.dataplane io'])).2) :
    len.toNat ≤ bytesIn s.mem chain (s.writesFor io chain) ↔ s.Reaches io chain := by
  rcases used_of_request hpc hmid hused with
    ⟨hshort, rfl⟩ | ⟨hdrDesc, dataDesc, rest, c, rfl, hc, rfl⟩
  · refine iff_of_true (Nat.zero_le _) ?_
    match chain, hshort with
    | [], _ => trivial
    | [_], _ => trivial
  · obtain ⟨mid, hserved⟩ := serve_served hc
    rw [BlkSystem.writesFor, hc, BlkSystem.Reaches]
    exact hserved.usedLen_iff (by simp)

end Blk

/-! ## Packets -/

namespace Net

/-- No descriptor is read: each is device-writable, empty, longer than the buffer or not in
RAM. -/
def NothingRead (mem : GuestMemory) (chain : List Descriptor) : Prop :=
  ∀ desc ∈ chain, desc.isWrite = true ∨ desc.len = 0 ∨ txBufLen < desc.len.toNat ∨
    ¬ mem.Mapped desc.addr.toNat desc.len.toNat

theorem gather_eq_nil_iff {out : List UInt8} (h : gather mem chain [] = .ok out) :
    out = [] ↔ NothingRead mem chain := by
  induction chain with
  | nil =>
      cases h
      exact iff_of_true rfl fun desc hdesc => absurd hdesc List.not_mem_nil
  | cons desc chain ih =>
      rw [NothingRead, List.forall_mem_cons]
      by_cases hskip : desc.isWrite = true ∨ desc.len = 0 ∨ txBufLen < desc.len.toNat ∨
          ¬ mem.Mapped desc.addr.toNat desc.len.toNat
      · rw [and_iff_right hskip]
        apply ih
        rcases hskip with hwrite | hempty | hlong | hout
        · rwa [gather_write hwrite] at h
        · rwa [gather_empty hempty] at h
        · rw [gather_cons, if_neg (by simp [hlong])] at h
          exact h
        · rw [gather_cons, if_neg hout] at h
          split at h
          · split at h
            · cases h
            · exact h
          · exact h
      · refine iff_of_false ?_ fun hnone => hskip hnone.1
        simp only [not_or, not_lt, not_not, Bool.not_eq_true] at hskip
        obtain ⟨hread, hlen, hfit, hmapped⟩ := hskip
        rw [gather_cons, if_pos (by simp [hread, hfit]), if_pos hmapped, List.nil_append] at h
        have hload := GuestMemory.load_length mem desc.addr.toNat desc.len.toNat
        obtain ⟨hgrow, -⟩ := gather_bounds (by rwa [hload]) h
        rw [hload] at hgrow
        rintro rfl
        rw [List.length_nil, Nat.le_zero] at hgrow
        exact hlen (UInt32.toNat_inj.mp hgrow)

theorem used_of_txStep {s : NetSystem} {head : UInt16} {q : Virtqueue}
    (hnext : (s.state.queues 1).nextAvail s.mem = .ok (some head, q))
    (hchain : q.readChain s.mem head = .ok chain) {h : UInt16} {len : UInt32} {added : Bool}
    (hused : .used 1 h len added ∈ s.txStep.2) :
    ∃ buf, gather s.mem chain [] = .ok buf ∧ len = UInt32.ofNat buf.length := by
  rcases s.txStep_cases with ⟨why, hs⟩ | hs | ⟨head', q', hnext', hs⟩
  · rw [hs] at hused
    cases hused
  · rw [hs] at hused
    cases hused
  obtain ⟨rfl, rfl⟩ : head = head' ∧ q = q' := by
    simpa only [Except.ok.injEq, Prod.mk.injEq, Option.some.injEq] using hnext.symm.trans hnext'
  rcases hs with ⟨why, buf, hs⟩ | ⟨chain', buf, added', q'', mem, hchain', hgather, -, hs⟩
  · rw [hs] at hused
    simp [NetSystem.used_not_mem_sent] at hused
  · rw [hchain, Except.ok.injEq] at hchain'
    subst hchain'
    simp only [hs, List.cons_append, List.mem_cons, List.mem_append, NetSystem.used_not_mem_sent,
      reduceCtorEq, false_or, List.not_mem_nil, or_false, Event.used.injEq, true_and] at hused
    exact ⟨buf, hgather, hused.2.1⟩

theorem tx_usedLen_iff {s : NetSystem} {head : UInt16} {q : Virtqueue}
    (hnext : (s.state.queues 1).nextAvail s.mem = .ok (some head, q))
    (hchain : q.readChain s.mem head = .ok chain) {h : UInt16} {len : UInt32} {added : Bool}
    (hused : .used 1 h len added ∈ s.txStep.2) :
    len.toNat ≤ bytesIn s.mem chain [] ↔ NothingRead s.mem chain := by
  obtain ⟨buf, hgather, rfl⟩ := used_of_txStep hnext hchain hused
  obtain ⟨-, hfull, -⟩ := gather_bounds (Nat.zero_le _) hgather
  have hlen : (UInt32.ofNat buf.length).toNat = buf.length :=
    UInt32.toNat_ofNat_of_lt' (Nat.lt_of_le_of_lt hfull (by decide))
  rw [hlen, bytesIn_nil, Nat.le_zero, List.length_eq_zero_iff]
  exact gather_eq_nil_iff hgather

def scatterWrites (frame : List UInt8) (chain : List Descriptor) : List Copied :=
  match chain.find? (·.isWrite) with
  | some desc =>
      if 12 ≤ desc.len then
        [(desc.addr.toNat, List.replicate headerLen 0),
          ((desc.addr + 12).toNat, frame.take (frameLen frame desc))]
      else []
  | none => []

theorem scatterWrites_first {frame : List UInt8} {desc : Descriptor}
    (hfind : chain.find? (·.isWrite) = some desc) (hroom : 12 ≤ desc.len) :
    scatterWrites frame chain =
      [(desc.addr.toNat, List.replicate headerLen 0),
        ((desc.addr + 12).toNat, frame.take (frameLen frame desc))] := by
  rw [scatterWrites, hfind]
  exact if_pos hroom

theorem scatter_writes {mem' : GuestMemory} {frame : List UInt8} {written : UInt32}
    (h : scatter mem frame chain = .ok (written, mem')) :
    mem' = applyWrites mem (scatterWrites frame chain) ∧
      GuestMemory.ChangesOnly (· ∈ filled mem (scatterWrites frame chain)) mem mem' := by
  suffices hmem : mem' = applyWrites mem (scatterWrites frame chain) by
    rw [hmem]
    exact ⟨rfl, changesOnly_filled _⟩
  rw [scatter_eq] at h
  cases hfind : chain.find? (·.isWrite) with
  | none =>
      rw [hfind] at h
      cases h
      rw [scatterWrites, hfind]
      rfl
  | some desc =>
      rw [hfind] at h
      dsimp only at h
      by_cases hroom : 12 ≤ desc.len
      · rw [if_pos hroom] at h
        split at h
        · cases h
        · split at h
          · cases h
          · cases h
            rw [scatterWrites_first hfind hroom]
            rfl
      · rw [if_neg hroom] at h
        cases h
        rw [scatterWrites, hfind]
        dsimp only
        rw [if_neg hroom]
        rfl

theorem mem_filled_scatter {frame : List UInt8} {desc : Descriptor}
    (hfind : chain.find? (·.isWrite) = some desc) (hroom : 12 ≤ desc.len)
    (hheader : ¬ mem.Wraps desc.addr.toNat 12) (x : Nat) :
    x ∈ filled mem (scatterWrites frame chain) ↔
      mem.Covers desc.addr.toNat headerLen x ∨
        mem.Covers (desc.addr.toNat + headerLen) (frameLen frame desc) x := by
  rw [mem_filled, scatterWrites_first hfind hroom, toNat_frameAddr hheader]
  simp only [List.exists_mem_cons_iff, List.not_mem_nil, false_and, exists_false, or_false,
    List.length_replicate, frameLen_take]

theorem bytesIn_scatter_iff {frame : List UInt8} {desc : Descriptor}
    (hfind : chain.find? (·.isWrite) = some desc) (hroom : 12 ≤ desc.len)
    (hheader : ¬ mem.Wraps desc.addr.toNat 12) :
    headerLen + frameLen frame desc ≤ bytesIn mem chain (scatterWrites frame chain) ↔
      mem.Mapped desc.addr.toNat (headerLen + frameLen frame desc) := by
  have hfilled : ∀ x, x ∈ filled mem (scatterWrites frame chain) ↔ _ :=
    mem_filled_scatter hfind hroom hheader
  constructor
  · intro hall
    by_contra hnot
    by_cases hhead : mem.Mapped desc.addr.toNat headerLen
    · -- the frame is not in RAM, and only the header counts
      have hframe : ¬ mem.Mapped (desc.addr.toNat + headerLen) (frameLen frame desc) := by
        intro hframe
        simp only [GuestMemory.mapped_iff, headerLen] at hnot hhead hframe
        omega
      have hle : bytesIn mem chain (scatterWrites frame chain) ≤ headerLen := by
        refine bytesIn_le (a := desc.addr.toNat) fun x hx _ => ?_
        rcases (hfilled x).mp hx with hcovers | hcovers
        · exact hcovers.2
        · exact absurd hcovers.1 hframe
      have hzero : frameLen frame desc = 0 := by omega
      rw [hzero] at hnot
      exact hnot hhead
    · have hle : bytesIn mem chain (scatterWrites frame chain) ≤ frameLen frame desc := by
        refine bytesIn_le (a := desc.addr.toNat + headerLen) fun x hx _ => ?_
        rcases (hfilled x).mp hx with hcovers | hcovers
        · exact absurd hcovers.1 hhead
        · exact hcovers.2
      simp only [headerLen] at hall
      omega
  · intro hmapped
    have hfit : frameLen frame desc ≤ desc.len.toNat - headerLen := Nat.min_le_right _ _
    have hroom' : 12 ≤ desc.len.toNat := UInt32.le_iff_toNat_le.mp hroom
    apply le_bytesIn (a := desc.addr.toNat)
    intro x hl hr
    refine ⟨(hfilled x).mpr ?_, desc, List.mem_of_find?_eq_some hfind, ?_, hl, ?_⟩
    · by_cases hbefore : x < desc.addr.toNat + headerLen
      · exact Or.inl ⟨hmapped.mono (Nat.le_refl _) (by omega), hl, hbefore⟩
      · exact Or.inr ⟨hmapped.mono (by omega) (by omega), by omega, by omega⟩
    · exact List.find?_some (p := fun d : Descriptor => d.isWrite) hfind
    · simp only [headerLen] at hr hfit
      omega

theorem used_of_rxStep {s : NetSystem} {packet frame : List UInt8} {head : UInt16}
    {q : Virtqueue} (hrecv : recv packet = some frame)
    (hnext : (s.state.queues 0).nextAvail s.mem = .ok (some head, q))
    (hchain : q.readChain s.mem head = .ok chain) {h : UInt16} {len : UInt32} {added : Bool}
    (hused : .used 0 h len added ∈ (s.rxStep packet).2) :
    0 < len ∧ ∃ mem', scatter s.mem frame chain = .ok (len, mem') := by
  rcases s.rxStep_cases packet with ⟨why, hs⟩ | hs | ⟨frame', head', q', hrecv', hnext', hs⟩
  · rw [hs] at hused
    cases hused
  · rw [hs] at hused
    simp at hused
  obtain ⟨rfl, rfl⟩ : head = head' ∧ q = q' := by
    simpa only [Except.ok.injEq, Prod.mk.injEq, Option.some.injEq] using hnext.symm.trans hnext'
  rw [hrecv, Option.some.injEq] at hrecv'
  subst hrecv'
  rcases hs with ⟨why, mem, hs⟩ | ⟨chain', written, mem, hchain', hscatter, hs⟩
  · rw [hs] at hused
    simp at hused
  rw [hchain, Except.ok.injEq] at hchain'
  subst hchain'
  rcases hs with ⟨-, hs⟩ | ⟨hpos, added', q'', mem', -, hs⟩
  · rw [hs] at hused
    simp at hused
  · simp only [hs, List.mem_cons, reduceCtorEq, false_or, Event.used.injEq, true_and,
      List.not_mem_nil, or_false] at hused
    obtain ⟨-, rfl, -⟩ := hused
    exact ⟨hpos, mem, hscatter⟩

theorem scatter_len {mem' : GuestMemory} {frame : List UInt8} {written : UInt32}
    (hpos : 0 < written) (h : scatter mem frame chain = .ok (written, mem')) :
    ∃ desc, chain.find? (·.isWrite) = some desc ∧ 12 ≤ desc.len ∧
      ¬ mem.Wraps desc.addr.toNat 12 ∧ written.toNat = headerLen + frameLen frame desc := by
  have hdeliverable := (scatter_written h).mp hpos
  have hsafe := scatterSafe_of_ok h
  rw [deliverable] at hdeliverable
  cases hfind : chain.find? (·.isWrite) with
  | none =>
      rw [hfind] at hdeliverable
      cases hdeliverable
  | some desc =>
      rw [hfind] at hdeliverable
      have hroom : 12 ≤ desc.len := of_decide_eq_true hdeliverable
      rw [scatter_first hsafe hfind hroom, Except.ok.injEq, Prod.mk.injEq] at h
      simp only [ScatterSafe, hfind] at hsafe
      refine ⟨desc, rfl, hroom, (hsafe hroom).1, ?_⟩
      rw [← h.1]
      apply UInt32.toNat_ofNat_of_lt'
      have hlt := desc.len.toNat_lt
      have hroom' : 12 ≤ desc.len.toNat := UInt32.le_iff_toNat_le.mp hroom
      simp only [headerLen, frameLen, UInt32.size]
      omega

theorem rx_usedLen_iff {s : NetSystem} {packet frame : List UInt8} {head : UInt16}
    {q : Virtqueue} (hrecv : recv packet = some frame)
    (hnext : (s.state.queues 0).nextAvail s.mem = .ok (some head, q))
    (hchain : q.readChain s.mem head = .ok chain) {h : UInt16} {len : UInt32} {added : Bool}
    (hused : .used 0 h len added ∈ (s.rxStep packet).2) :
    len.toNat ≤ bytesIn s.mem chain (scatterWrites frame chain) ↔
      ∀ desc, chain.find? (·.isWrite) = some desc →
        s.mem.Mapped desc.addr.toNat (headerLen + frameLen frame desc) := by
  obtain ⟨hpos, mem', hscatter⟩ := used_of_rxStep hrecv hnext hchain hused
  obtain ⟨desc, hfind, hroom, hheader, hlen⟩ := scatter_len hpos hscatter
  rw [hlen, bytesIn_scatter_iff hfind hroom hheader, hfind]
  constructor
  · intro hmapped desc' hfind'
    cases hfind'
    exact hmapped
  · intro hall
    exact hall desc rfl

end Net

/-- A read of one sector, with the buffer's flags as given. -/
def Blk.readRequest (flags : UInt16) : List Descriptor :=
  [⟨0x3000, 16, 1, 1⟩, ⟨0x5000, 512, flags, 2⟩, ⟨0x6000, 1, 2, 0⟩]

def Blk.readInHand (flags : UInt16) : Blk.BlkSystem :=
  (machine.run (.new (List.replicate 1024 7) false .twoMib)
    (requestRun (readRequest flags) [0] [none, none])).1

end Caiman.Vmm
