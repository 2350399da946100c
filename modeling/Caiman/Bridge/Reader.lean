import Caiman.Bridge.Image

/-!
# The reader refines the image

What each operation of the reader does, in terms of the image it reads. Nothing
but an error of the declared kind stops an operation, every range it reads and
every buffer it allocates for a table fits in the file, and what it returns is
what the image says, whatever the cache holds.
-/

namespace Caiman.Bridge

open Lib

/-! ## The image file -/

/-- The file is the image, and what has been asked of it fits in it. -/
structure Input.Safe (bytes : List UInt8) (s : Input) : Prop where
  data : s.file.data = bytes
  reads : ∀ p ∈ s.reads, p.1 + p.2 ≤ bytes.length
  allocs : ∀ n ∈ s.allocs, n ≤ bytes.length

def IsErr (e : Fault) : Prop := ∃ q, e = .err q

section

variable {σ : Type} {P : σ → Prop} {E : Fault → σ → Prop}

theorem refuse_spec {bad : Prop} [Decidable bad] {e : Qcow2Error}
    (h : bad → ∀ s, P s → E (.err e) s) :
    Triple P (refuse bad e) (fun _ s => P s ∧ ¬ bad) E :=
  Triple.ite (fun hbad => Triple.throw (h hbad)) fun hbad => Triple.pure fun _ hs => ⟨hs, hbad⟩

theorem get_spec : Triple P get (fun a s => P s ∧ P a) E := fun _ hs => ⟨hs, hs⟩

theorem beU32_spec {buf : List UInt8} {off : Nat} (h : off + 4 ≤ buf.length) :
    Triple P (beU32 buf off) (fun v s => P s ∧ v = u32At buf off) E := by
  unfold beU32
  rw [if_pos h]
  exact Triple.pure fun _ hs => ⟨hs, rfl⟩

theorem beU64_spec {buf : List UInt8} {off : Nat} (h : off + 8 ≤ buf.length) :
    Triple P (beU64 buf off) (fun v s => P s ∧ v = u64At buf off) E := by
  unfold beU64
  rw [if_pos h]
  exact Triple.pure fun _ hs => ⟨hs, rfl⟩

theorem index_spec {α : Type} {xs : List α} {i : Nat} {x : α} (h : xs[i]? = some x) :
    Triple P (index xs i) (fun y s => P s ∧ y = x) E := by
  unfold index
  rw [h]
  exact Triple.pure fun _ hs => ⟨hs, rfl⟩

theorem tableAt_cons (bytes : List UInt8) (off n : Nat) :
    tableAt bytes off (n + 1) = u64At bytes off :: tableAt bytes (off + 8) n := by
  simp only [tableAt, List.range_succ_eq_map, List.map_cons, List.map_map, Nat.zero_mul,
    Nat.add_zero]
  congr 1
  apply List.map_congr_left
  intro i _
  simp only [Function.comp, Nat.succ_eq_add_one]
  congr 1
  omega

theorem tableAt_getElem? {bytes : List UInt8} {off n i : Nat} (h : i < n) :
    (tableAt bytes off n)[i]? = some (u64At bytes (off + i * 8)) := by
  simp [tableAt, h]

theorem parseTable_spec {raw : List UInt8} {n i : Nat} (h : (i + n) * 8 ≤ raw.length) :
    Triple P (parseTable raw n i) (fun table s => P s ∧ table = tableAt raw (i * 8) n) E := by
  induction n generalizing i with
  | zero => exact Triple.pure fun _ hs => ⟨hs, rfl⟩
  | succ n ih =>
      unfold parseTable
      apply Triple.step (beU64_spec (by omega))
      rintro entry rfl
      apply Triple.step (ih (by omega))
      rintro rest rfl
      apply Triple.pure
      intro s hs
      refine ⟨hs, ?_⟩
      rw [tableAt_cons, Nat.succ_mul]

end

theorem u64At_slice {bytes : List UInt8} {off n x : Nat} (h : x + 8 ≤ n) :
    u64At ((bytes.drop off).take n) x = u64At bytes (off + x) := by
  unfold u64At
  rw [List.drop_take, List.take_take, List.drop_drop, Nat.min_eq_left (by omega)]

theorem tableAt_slice {bytes : List UInt8} {off n : Nat} :
    tableAt ((bytes.drop off).take (n * 8)) 0 n = tableAt bytes off n := by
  apply List.map_congr_left
  intro i hi
  have hi' : i < n := List.mem_range.mp hi
  rw [u64At_slice (by omega), Nat.zero_add]

namespace Input

variable {bytes : List UInt8} {E : Fault → Input → Prop}

theorem len_spec :
    Triple (Safe bytes) len (fun n s => Safe bytes s ∧ n = UInt64.ofNat bytes.length) E :=
  fun _ hs => ⟨hs, congrArg (fun d : List UInt8 => UInt64.ofNat d.length) hs.data⟩

theorem allocate_spec {n : Nat} (h : n ≤ bytes.length) :
    Triple (Safe bytes) (allocate n) (fun _ s => Safe bytes s ∧ True) E := by
  intro s hs
  refine ⟨⟨hs.data, hs.reads, ?_⟩, trivial⟩
  intro m hm
  rcases List.mem_cons.mp hm with rfl | hin
  · exact h
  · exact hs.allocs m hin

theorem seek_spec {offset : UInt64} (h : offset.toNat < 2 ^ 63) :
    Triple (Safe bytes) (seek offset)
      (fun _ s => Safe bytes s ∧ s.file.pos = offset.toNat) E := by
  apply Triple.zoom
  rintro s hs t rfl
  rw [File.run_seek h]
  exact ⟨⟨hs.data, hs.reads, hs.allocs⟩, rfl⟩

theorem readExact_spec {off n : Nat} (h : off + n ≤ bytes.length) :
    Triple (fun s => Safe bytes s ∧ s.file.pos = off) (readExact n)
      (fun got s => Safe bytes s ∧ got = (bytes.drop off).take n) E := by
  apply Triple.bind (Q := fun _ s => Safe bytes s ∧ s.file.pos = off)
  · rintro s ⟨hs, hpos⟩
    refine ⟨⟨hs.data, ?_, hs.allocs⟩, hpos⟩
    intro p hp
    rcases List.mem_cons.mp hp with rfl | hin
    · rw [hpos]
      exact h
    · exact hs.reads p hin
  · intro _
    apply Triple.zoom
    rintro s ⟨hs, hpos⟩ t rfl
    rw [File.run_readExact (by rw [hs.data, hpos]; exact h)]
    exact ⟨⟨hs.data, hs.reads, hs.allocs⟩, by rw [hs.data, hpos]⟩

end Input

/-! ## The reader -/

structure Reads (img : Image) (r : Qcow2Reader) : Prop where
  safe : r.input.Safe img.bytes
  size_lt : img.bytes.length < 2 ^ 63
  bits : 9 ≤ img.clusterBits ∧ img.clusterBits ≤ 21
  fileLen : r.fileLen.toNat = img.bytes.length
  clusterBits : r.clusterBits.toNat = img.clusterBits
  clusterSize : r.clusterSize.toNat = img.clusterSize
  virtualSize : r.virtualSize.toNat = img.virtualSize
  l2Entries : r.l2Entries.toNat = img.l2Entries
  l1Table : r.l1Table = img.l1Table
  cache : r.l2Cache ≠ [] →
    r.l2CacheOffset.toNat + img.clusterSize ≤ img.bytes.length ∧
      r.l2Cache = tableAt img.bytes r.l2CacheOffset.toNat img.l2Entries

variable {img : Image} {r : Qcow2Reader}

theorem Reads.withInput {s : Input} (h : Reads img r) (hs : s.Safe img.bytes) :
    Reads img { r with input := s } :=
  ⟨hs, h.size_lt, h.bits, h.fileLen, h.clusterBits, h.clusterSize, h.virtualSize, h.l2Entries,
    h.l1Table, h.cache⟩

theorem Reads.clusterSize_le (h : Reads img r) : img.clusterSize ≤ 2 ^ 21 :=
  Nat.pow_le_pow_right (by norm_num) h.bits.2

theorem Reads.l2Entries_mul (h : Reads img r) : img.l2Entries * 8 = img.clusterSize := by
  have hbits : img.clusterSize = 2 ^ (img.clusterBits - 3) * 8 := by
    have h8 : (8 : Nat) = 2 ^ 3 := rfl
    rw [h8, ← Nat.pow_add]
    unfold Image.clusterSize
    congr 1
    have := h.bits.1
    omega
  unfold Image.l2Entries
  rw [hbits, Nat.mul_div_cancel _ (by norm_num)]

theorem Reads.l2Entries_pos (h : Reads img r) : 0 < img.l2Entries := by
  have hmul := h.l2Entries_mul
  have hpos := img.clusterSize_pos
  omega

theorem lt_checkedEnd_iff {fileLen a b : UInt64} (h : fileLen.toNat < 2 ^ 63) :
    fileLen < checkedEnd a b ↔ fileLen.toNat < a.toNat + b.toNat := by
  unfold checkedEnd
  rw [UInt64.lt_iff_toNat_lt]
  split
  · rename_i hsum
    rw [UInt64.toNat_add, Nat.mod_eq_of_lt hsum]
  · rename_i hsum
    have hmax : (0xffffffffffffffff : UInt64).toNat = 2 ^ 64 - 1 := rfl
    rw [hmax]
    omega

theorem offset_lt (entry : UInt64) : (entry &&& offsetMask).toNat < 2 ^ 56 := by
  rw [UInt64.toNat_and]
  have hmask : offsetMask.toNat < 2 ^ 56 := by decide
  exact lt_of_le_of_lt Nat.and_le_right hmask

theorem onInput_spec {α : Type} {op : EStateM Fault Input α} {R : Input → Prop}
    {Q : α → Input → Prop} {E : Fault → Qcow2Reader → Prop}
    (h : Triple (fun s => s.Safe img.bytes ∧ R s) op (fun a s => s.Safe img.bytes ∧ Q a s)
      (fun _ _ => False)) :
    Triple (fun r => Reads img r ∧ R r.input) (Qcow2Reader.onInput op)
      (fun a r => Reads img r ∧ Q a r.input) E := by
  apply Triple.zoom
  rintro r ⟨hr, hR⟩
  apply h.conseq
  · rintro s rfl
    exact ⟨hr.safe, hR⟩
  · rintro a s ⟨hs, hQ⟩
    exact ⟨hr.withInput hs, hQ⟩
  · intro e s hfalse
    exact hfalse.elim

theorem onInput_safe {α : Type} {op : EStateM Fault Input α} {Q : α → Input → Prop}
    {E : Fault → Qcow2Reader → Prop}
    (h : Triple (fun s => s.Safe img.bytes) op (fun a s => s.Safe img.bytes ∧ Q a s)
      (fun _ _ => False)) :
    Triple (Reads img) (Qcow2Reader.onInput op) (fun a r => Reads img r ∧ Q a r.input) E := by
  have hop : Triple (fun s => s.Safe img.bytes ∧ True) op
      (fun a s => s.Safe img.bytes ∧ Q a s) (fun _ _ => False) :=
    h.conseq (fun _ hs => hs.1) (fun _ _ hs => hs) fun _ _ hs => hs
  exact (onInput_spec hop).conseq (fun _ hr => ⟨hr, trivial⟩) (fun _ _ hr => hr)
    fun _ _ he => he

theorem allocate_spec {n : Nat} (h : n ≤ img.bytes.length) {E : Fault → Qcow2Reader → Prop} :
    Triple (Reads img) (Qcow2Reader.onInput (Input.allocate n)) (fun _ => Reads img) E :=
  (onInput_safe (Input.allocate_spec h)).conseq (fun _ hr => hr) (fun _ _ hr => hr.1)
    fun _ _ he => he

theorem seek_spec {offset : UInt64} (h : offset.toNat < 2 ^ 63)
    {E : Fault → Qcow2Reader → Prop} :
    Triple (Reads img) (Qcow2Reader.onInput (Input.seek offset))
      (fun _ r => Reads img r ∧ r.input.file.pos = offset.toNat) E :=
  onInput_safe (Q := fun _ s => s.file.pos = offset.toNat) (Input.seek_spec h)

theorem readExact_spec {off n : Nat} (h : off + n ≤ img.bytes.length)
    {E : Fault → Qcow2Reader → Prop} :
    Triple (fun r => Reads img r ∧ r.input.file.pos = off)
      (Qcow2Reader.onInput (Input.readExact n))
      (fun got r => Reads img r ∧ got = (img.bytes.drop off).take n) E :=
  onInput_spec (R := fun s => s.file.pos = off) (Q := fun got _ => got = (img.bytes.drop off).take n)
    (Input.readExact_spec h)

theorem inRange_spec {offset : UInt64} {n : Nat} (hr : Reads img r) {size : UInt64}
    (hsize : size.toNat = n) {P : Qcow2Reader → Prop} {E : Fault → Qcow2Reader → Prop}
    (herr : img.bytes.length < offset.toNat + n → ∀ s, P s →
      E (.err (.offsetOutOfRange offset)) s) :
    Triple P (refuse (r.fileLen < checkedEnd offset size) (.offsetOutOfRange offset))
      (fun _ s => P s ∧ offset.toNat + n ≤ img.bytes.length) E := by
  have hiff : r.fileLen < checkedEnd offset size ↔ img.bytes.length < offset.toNat + n := by
    rw [lt_checkedEnd_iff (by rw [hr.fileLen]; exact hr.size_lt), hr.fileLen, hsize]
  apply (refuse_spec fun hbad => herr (hiff.mp hbad)).conseq (fun _ hs => hs)
  · rintro _ s ⟨hs, hok⟩
    exact ⟨hs, by rw [hiff] at hok; omega⟩
  · exact fun _ _ he => he

/-- Afterwards the cache holds the table at `l2Offset`. -/
def Cached (img : Image) (l2Offset : UInt64) (r : Qcow2Reader) : Prop :=
  Reads img r ∧ r.l2Cache = tableAt img.bytes l2Offset.toNat img.l2Entries

theorem loadL2_spec {l2Offset : UInt64} {E : Fault → Qcow2Reader → Prop}
    (herr : img.bytes.length < l2Offset.toNat + img.clusterSize → ∀ r, Reads img r →
      E (.err (.offsetOutOfRange l2Offset)) r) :
    Triple (Reads img) (Qcow2Reader.loadL2 l2Offset)
      (fun _ r => Cached img l2Offset r ∧
        l2Offset.toNat + img.clusterSize ≤ img.bytes.length) E := by
  unfold Qcow2Reader.loadL2
  apply Triple.step get_spec
  intro r hr
  apply Triple.step (inRange_spec hr hr.clusterSize herr)
  intro _ hin
  have hsize := hr.clusterSize
  have hlt := hr.size_lt
  apply Triple.bind (allocate_spec (by omega))
  intro _
  apply Triple.bind (seek_spec (by omega))
  intro _
  apply Triple.step (readExact_spec (by omega))
  rintro raw rfl
  have hentries : r.l2Entries.toNat * 8 = img.clusterSize := by
    rw [hr.l2Entries, hr.l2Entries_mul]
  apply Triple.bind (allocate_spec (by omega))
  intro _
  have hraw : ((img.bytes.drop l2Offset.toNat).take r.clusterSize.toNat).length =
      img.clusterSize := by
    simp only [List.length_take, List.length_drop]
    omega
  apply Triple.step (parseTable_spec (by rw [hraw]; omega))
  intro table htable
  have htable' : table = tableAt img.bytes l2Offset.toNat img.l2Entries := by
    rw [htable, Nat.zero_mul, hsize, ← hr.l2Entries_mul, hr.l2Entries]
    exact tableAt_slice
  intro s hs
  refine ⟨⟨⟨hs.safe, hs.size_lt, hs.bits, hs.fileLen, hs.clusterBits, hs.clusterSize,
    hs.virtualSize, hs.l2Entries, hs.l1Table, fun _ => ⟨hin, htable'⟩⟩, htable'⟩, hin⟩

theorem ensureL2_spec {l2Offset : UInt64} {E : Fault → Qcow2Reader → Prop}
    (herr : img.bytes.length < l2Offset.toNat + img.clusterSize → ∀ r, Reads img r →
      E (.err (.offsetOutOfRange l2Offset)) r) :
    Triple (Reads img) (Qcow2Reader.ensureL2 l2Offset)
      (fun _ r => Cached img l2Offset r ∧
        l2Offset.toNat + img.clusterSize ≤ img.bytes.length) E := by
  intro r hr
  have hrun : (Qcow2Reader.ensureL2 l2Offset).run r =
      (if l2Offset ≠ r.l2CacheOffset ∨ r.l2Cache = [] then Qcow2Reader.loadL2 l2Offset
        else pure ()).run r := rfl
  rw [hrun]
  by_cases hmiss : l2Offset ≠ r.l2CacheOffset ∨ r.l2Cache = []
  · rw [if_pos hmiss]
    exact loadL2_spec herr r hr
  · rw [if_neg hmiss]
    rw [not_or, not_not] at hmiss
    obtain ⟨hin, htable⟩ := hr.cache hmiss.2
    rw [← hmiss.1] at hin htable
    exact ⟨⟨hr, htable⟩, hin⟩

theorem entryLoc_spec {entry : UInt64} {E : Fault → Qcow2Reader → Prop}
    (herr : entry &&& l2Compressed ≠ 0 → ∀ r, Reads img r → E (.err .compressedCluster) r) :
    Triple (Reads img) (Qcow2Reader.entryLoc entry)
      (fun loc r => Reads img r ∧ ¬ entry &&& l2Compressed ≠ 0 ∧
        loc = if entry &&& l2Zero ≠ 0 ∨ entry &&& offsetMask = 0 then .zero
          else .data (entry &&& offsetMask)) E := by
  unfold Qcow2Reader.entryLoc
  apply Triple.step (refuse_spec herr)
  intro _ hcomp
  apply Triple.ite
  · intro hhole
    exact Triple.pure fun _ hs => ⟨hs, hcomp, (if_pos hhole).symm⟩
  · intro hhole
    exact Triple.pure fun _ hs => ⟨hs, hcomp, (if_neg hhole).symm⟩

/-- The walk through the tables, cached or not, is the lookup in the image. -/
theorem resolveCluster_spec (c : UInt64) :
    Triple (Reads img) (Qcow2Reader.resolveCluster c)
      (fun loc r => Reads img r ∧ img.locate c.toNat = .ok loc)
      (fun e r => Reads img r ∧ ∃ q, e = .err q ∧ img.locate c.toNat = .error q) := by
  unfold Qcow2Reader.resolveCluster
  apply Triple.step get_spec
  intro r hr
  have hl1 : (c / r.l2Entries).toNat = c.toNat / img.l2Entries := by
    rw [UInt64.toNat_div, hr.l2Entries]
  have hl2 : (c % r.l2Entries).toNat = c.toNat % img.l2Entries := by
    rw [UInt64.toNat_mod, hr.l2Entries]
  dsimp only
  rw [hl1, hl2, hr.l1Table]
  apply Triple.ite
  · intro hpast
    apply Triple.pure
    intro s hs
    refine ⟨hs, ?_⟩
    unfold Image.locate
    rw [List.getElem?_eq_none hpast]
  · intro hin
    obtain ⟨entry, hentry⟩ : ∃ entry, img.l1Table[c.toNat / img.l2Entries]? = some entry :=
      ⟨_, List.getElem?_eq_getElem (by omega)⟩
    apply Triple.step (index_spec hentry)
    rintro y rfl
    apply Triple.ite
    · intro hzero
      apply Triple.pure
      intro s hs
      refine ⟨hs, ?_⟩
      unfold Image.locate
      rw [hentry]
      exact if_pos hzero
    · intro hzero
      have hwalk : img.locate c.toNat =
          if img.bytes.length < (y &&& offsetMask).toNat + img.clusterSize then
            .error (.offsetOutOfRange (y &&& offsetMask))
          else
            let entry := u64At img.bytes
              ((y &&& offsetMask).toNat + c.toNat % img.l2Entries * 8)
            if entry &&& l2Compressed ≠ 0 then .error .compressedCluster
            else if entry &&& l2Zero ≠ 0 ∨ entry &&& offsetMask = 0 then .ok .zero
            else .ok (.data (entry &&& offsetMask)) := by
        unfold Image.locate
        rw [hentry]
        exact if_neg hzero
      apply Triple.step (ensureL2_spec fun hbad s hs => ⟨hs, _, rfl, by rw [hwalk, if_pos hbad]⟩)
      intro _ hrange
      rw [if_neg (by omega)] at hwalk
      apply Triple.step get_spec
      rintro s ⟨-, hcache⟩
      have hindex : s.l2Cache[c.toNat % img.l2Entries]? = some (u64At img.bytes
          ((y &&& offsetMask).toNat + c.toNat % img.l2Entries * 8)) := by
        rw [hcache]
        exact tableAt_getElem? (Nat.mod_lt _ hr.l2Entries_pos)
      apply Triple.step (index_spec hindex)
      rintro low rfl
      dsimp only at hwalk
      apply Triple.conseq (E := fun e r => Reads img r ∧
        ∃ q, e = .err q ∧ img.locate c.toNat = .error q)
        (entryLoc_spec fun hcomp s hs => ⟨hs, _, rfl, by rw [hwalk, if_pos hcomp]⟩)
      · exact fun _ hs => hs.1
      · rintro loc s ⟨hs, hcomp, hloc⟩
        refine ⟨hs, ?_⟩
        rw [hwalk, if_neg hcomp, hloc]
        split <;> rfl
      · exact fun _ _ he => he

theorem readHost_spec {hostOffset : UInt64} {n : Nat} (hn : n ≤ img.clusterSize)
    (hlt : hostOffset.toNat < 2 ^ 56) {E : Fault → Qcow2Reader → Prop}
    (herr : img.bytes.length < hostOffset.toNat + img.clusterSize → ∀ r, Reads img r →
      E (.err (.offsetOutOfRange hostOffset)) r) :
    Triple (Reads img) (Qcow2Reader.readHost hostOffset n)
      (fun got r => Reads img r ∧ hostOffset.toNat + img.clusterSize ≤ img.bytes.length ∧
        got = (img.bytes.drop hostOffset.toNat).take n) E := by
  unfold Qcow2Reader.readHost
  apply Triple.step get_spec
  intro r hr
  apply Triple.step (inRange_spec hr hr.clusterSize herr)
  intro _ hin
  apply Triple.bind (seek_spec (by omega))
  intro _
  apply (readExact_spec (by omega)).conseq (fun _ hs => hs)
  · rintro got s ⟨hs, hgot⟩
    exact ⟨hs, hin, hgot⟩
  · exact fun _ _ he => he

theorem locate_data_lt {c : Nat} {hostOffset : UInt64}
    (h : img.locate c = .ok (.data hostOffset)) : hostOffset.toNat < 2 ^ 56 := by
  rcases img.locate_ok h with ⟨-, hloc⟩ | ⟨entry, -, ⟨-, hloc⟩ | ⟨-, hloc⟩⟩
  · cases hloc
  · cases hloc
  · cases hloc
    exact offset_lt entry

theorem readClusterInto_spec (c : UInt64) {buf : List UInt8}
    (hbuf : buf.length = img.clusterSize) :
    Triple (Reads img) (Qcow2Reader.readClusterInto c buf)
      (fun got r => Reads img r ∧ img.Readable c.toNat ∧ got = img.cluster c.toNat)
      (fun e r => Reads img r ∧ IsErr e ∧ ¬ img.Readable c.toNat) := by
  unfold Qcow2Reader.readClusterInto
  apply Triple.bind (Q := fun loc r => Reads img r ∧ img.locate c.toNat = .ok loc)
  · apply (resolveCluster_spec c).conseq (fun _ hs => hs) (fun _ _ hs => hs)
    rintro e s ⟨hs, q, rfl, hloc⟩
    exact ⟨hs, ⟨q, rfl⟩, by simp [Image.Readable, hloc]⟩
  · intro loc
    apply Triple.assume
    intro hloc
    cases loc with
    | zero =>
        apply Triple.pure
        intro s hs
        refine ⟨hs, by simp [Image.Readable, hloc], ?_⟩
        simp [Image.cluster, hloc, hbuf]
    | data hostOffset =>
        apply Triple.conseq (E := fun e r => Reads img r ∧ IsErr e ∧ ¬ img.Readable c.toNat)
          (readHost_spec (by omega) (locate_data_lt hloc) fun hbad s hs =>
            ⟨hs, ⟨_, rfl⟩, by simp only [Image.Readable, hloc]; omega⟩)
        · exact fun _ hs => hs
        · rintro got s ⟨hs, hin, rfl⟩
          refine ⟨hs, by simpa only [Image.Readable, hloc] using hin, ?_⟩
          simp [Image.cluster, hloc, hbuf]
        · exact fun _ _ he => he

/-! ## Opening -/

theorem u32At_header {bytes rest : List UInt8} {n off : Nat} (hn : n ≤ bytes.length)
    (h : off + 4 ≤ n) : u32At (bytes.take n ++ rest) off = u32At bytes off := by
  unfold u32At
  rw [List.drop_append_of_le_length (by rw [List.length_take]; omega),
    List.take_append_of_le_length (by rw [List.length_drop, List.length_take]; omega),
    List.drop_take, List.take_take, Nat.min_eq_left (by omega)]

theorem u64At_header {bytes rest : List UInt8} {n off : Nat} (hn : n ≤ bytes.length)
    (h : off + 8 ≤ n) : u64At (bytes.take n ++ rest) off = u64At bytes off := by
  unfold u64At
  rw [List.drop_append_of_le_length (by rw [List.length_take]; omega),
    List.take_append_of_le_length (by rw [List.length_drop, List.length_take]; omega),
    List.drop_take, List.take_take, Nat.min_eq_left (by omega)]

/-- An operation on the image file that stops leaves it safe. -/
def StoppedSafe (bytes : List UInt8) (e : Fault) (s : Input) : Prop := s.Safe bytes ∧ IsErr e

/-- It stops because the file is not as it asks. -/
def Refused (bytes : List UInt8) (asked : Prop) (e : Fault) (s : Input) : Prop :=
  StoppedSafe bytes e s ∧ ¬ asked

theorem refuse_exact {bytes : List UInt8} {bad asked : Prop} [Decidable bad] {e : Qcow2Error}
    (h : asked → ¬ bad) :
    Triple (Input.Safe bytes) (refuse bad e) (fun _ s => s.Safe bytes ∧ ¬ bad)
      (Refused bytes asked) :=
  refuse_spec fun hbad _ hs => ⟨⟨hs, e, rfl⟩, fun hasked => h hasked hbad⟩

theorem checkFeatures_exact {bytes hdr : List UInt8} {version : UInt32} {toRead : Nat}
    {asked : Prop} (hlength : hdr.length = 104)
    (h : asked → 3 ≤ version ∧ 80 ≤ toRead → u64At hdr 72 &&& ~~~incompatSupported = 0) :
    Triple (Input.Safe bytes) (Qcow2Reader.checkFeatures version toRead hdr)
      (fun _ s => s.Safe bytes ∧
        (3 ≤ version ∧ 80 ≤ toRead → u64At hdr 72 &&& ~~~incompatSupported = 0))
      (Refused bytes asked) := by
  unfold Qcow2Reader.checkFeatures
  apply Triple.ite
  · intro hread
    apply Triple.step (beU64_spec (by omega))
    rintro incompatible rfl
    apply (refuse_exact fun hasked => not_not.mpr (h hasked hread)).imp_ok
    exact fun _ s hs => ⟨hs.1, fun _ => not_not.mp hs.2⟩
  · intro hread
    exact Triple.pure fun _ hs => ⟨hs, fun hand => absurd hand hread⟩

/-- The header fields are those at their places in the file. -/
structure HeaderOf (bytes : List UInt8) (h : Qcow2Reader.Header) : Prop where
  fileLen : h.fileLen.toNat = bytes.length
  bits : 9 ≤ h.clusterBits.toNat ∧ h.clusterBits.toNat ≤ 21
  clusterBits : h.clusterBits = u32At bytes 20
  virtualSize : h.virtualSize = u64At bytes 24
  l1Size : h.l1Size = (u32At bytes 36).toUInt64
  l1TableOffset : h.l1TableOffset = u64At bytes 40

/-- What `open` checks of the header. The features are looked at in a file that is as long as
a version 3 header. -/
structure HeaderChecks (bytes : List UInt8) : Prop where
  long : 72 ≤ bytes.length
  magic : u32At bytes 0 = qcow2Magic
  version : u32At bytes 4 = 2 ∨ u32At bytes 4 = 3
  backing : u64At bytes 8 = 0
  bits : 9 ≤ u32At bytes 20 ∧ u32At bytes 20 ≤ 21
  crypt : u32At bytes 32 = 0
  features : u32At bytes 4 = 3 → 104 ≤ bytes.length →
    u64At bytes 72 &&& ~~~incompatSupported = 0

theorem readHeader_exact (data : FileData) :
    Triple (Input.Safe data.bytes) Qcow2Reader.readHeader
      (fun h s => s.Safe data.bytes ∧ HeaderOf data.bytes h ∧ HeaderChecks data.bytes)
      (Refused data.bytes (HeaderChecks data.bytes)) := by
  have hsize := data.size_lt
  unfold Qcow2Reader.readHeader
  apply Triple.step Input.len_spec
  intro fileLen hlen
  have hfileLen : fileLen.toNat = data.bytes.length := by
    rw [hlen, UInt64.toNat_ofNat']
    exact Nat.mod_eq_of_lt (by omega)
  have h72 : fileLen < 72 ↔ data.bytes.length < 72 := by
    rw [UInt64.lt_iff_toNat_lt, hfileLen]
    rfl
  have h104 : 104 ≤ fileLen ↔ 104 ≤ data.bytes.length := by
    rw [UInt64.le_iff_toNat_le, hfileLen]
    rfl
  apply Triple.step (refuse_exact fun hasked hshort =>
    Nat.not_lt.mpr hasked.long (h72.mp hshort))
  intro _ hlong
  rw [h72] at hlong
  dsimp only
  generalize htoRead : (if 104 ≤ fileLen then 104 else 72) = toRead
  have hread : 72 ≤ toRead ∧ toRead ≤ 104 ∧ toRead ≤ data.bytes.length ∧
      (80 ≤ toRead ↔ 104 ≤ data.bytes.length) ∧ (80 ≤ toRead → toRead = 104) := by
    rw [← htoRead]
    split
    · rename_i hlarge
      rw [h104] at hlarge
      exact ⟨by omega, by omega, by omega, by omega, fun _ => rfl⟩
    · rename_i hsmall
      rw [h104] at hsmall
      exact ⟨by omega, by omega, by omega, by omega, by omega⟩
  obtain ⟨hmin, hmax, hin, hwhole, hsame⟩ := hread
  apply Triple.bind (Input.seek_spec (by decide))
  intro _
  apply Triple.step (Input.readExact_spec (by simpa using hin))
  intro got hgot
  generalize hhdr : got ++ List.replicate (104 - toRead) 0 = hdr
  have hfile : hdr = data.bytes.take toRead ++ List.replicate (104 - toRead) 0 := by
    rw [← hhdr, hgot]
    rfl
  have hlength : hdr.length = 104 := by
    simp only [hfile, List.length_append, List.length_take, List.length_replicate]
    omega
  have hu32 : ∀ {off : Nat}, off + 4 ≤ 72 → u32At hdr off = u32At data.bytes off := by
    intro off hoff
    rw [hfile]
    exact u32At_header hin (by omega)
  have hu64 : ∀ {off : Nat}, off + 8 ≤ toRead → u64At hdr off = u64At data.bytes off := by
    intro off hoff
    rw [hfile]
    exact u64At_header hin hoff
  apply Triple.step (beU32_spec (by omega))
  rintro magic rfl
  rw [hu32 (by omega)]
  apply Triple.step (refuse_exact fun hasked => not_not.mpr hasked.magic)
  intro _ hmagic
  apply Triple.step (beU32_spec (by omega))
  rintro version rfl
  rw [hu32 (by omega)]
  apply Triple.step (refuse_exact fun hasked hbad => hasked.version.elim hbad.1 hbad.2)
  intro _ hversion
  apply Triple.step (beU64_spec (by omega))
  rintro backingFileOffset rfl
  rw [hu64 (by omega)]
  apply Triple.step (refuse_exact fun hasked => not_not.mpr hasked.backing)
  intro _ hbacking
  apply Triple.step (beU32_spec (by omega))
  rintro clusterBits rfl
  rw [hu32 (by omega)]
  apply Triple.step (refuse_exact fun hasked hbad =>
    hbad.elim (UInt32.not_lt.mpr hasked.bits.1) (UInt32.not_lt.mpr hasked.bits.2))
  intro _ hrange
  rw [not_or, UInt32.not_lt, UInt32.not_lt] at hrange
  apply Triple.step (beU64_spec (by omega))
  rintro virtualSize rfl
  rw [hu64 (by omega)]
  apply Triple.step (beU32_spec (by omega))
  rintro cryptMethod rfl
  rw [hu32 (by omega)]
  apply Triple.step (refuse_exact fun hasked => not_not.mpr hasked.crypt)
  intro _ hcrypt
  apply Triple.step (beU32_spec (by omega))
  rintro l1Size rfl
  rw [hu32 (by omega)]
  apply Triple.step (beU64_spec (by omega))
  rintro l1TableOffset rfl
  rw [hu64 (by omega)]
  have hthree : u32At data.bytes 4 = 3 → 3 ≤ u32At data.bytes 4 := by
    intro h
    rw [h]
    decide
  have hversion : u32At data.bytes 4 = 2 ∨ u32At data.bytes 4 = 3 := by
    by_contra hnot
    exact hversion (not_or.mp hnot)
  have hfeatures : HeaderChecks data.bytes → 3 ≤ u32At data.bytes 4 ∧ 80 ≤ toRead →
      u64At hdr 72 &&& ~~~incompatSupported = 0 := by
    intro hasked hand
    have hversion3 : u32At data.bytes 4 = 3 := by
      rcases hasked.version with h2 | h3
      · rw [h2] at hand
        exact absurd hand.1 (by decide)
      · exact h3
    rw [hu64 (by rw [hsame hand.2]; decide)]
    exact hasked.features hversion3 (hwhole.mp hand.2)
  apply Triple.step (checkFeatures_exact hlength hfeatures)
  intro _ hchecked
  apply Triple.pure
  intro s hs
  refine ⟨hs, ⟨hfileLen, ⟨?_, ?_⟩, rfl, rfl, rfl, rfl⟩, ?_⟩
  · exact UInt32.le_iff_toNat_le.mp hrange.1
  · exact UInt32.le_iff_toNat_le.mp hrange.2
  refine ⟨Nat.le_of_not_lt hlong, not_not.mp hmagic, hversion, not_not.mp hbacking, hrange,
    not_not.mp hcrypt, ?_⟩
  intro hversion3 hlarge
  have hwide : 80 ≤ toRead := hwhole.mpr hlarge
  rw [← hu64 (by rw [hsame hwide]; decide)]
  exact hchecked ⟨hthree hversion3, hwide⟩

/-- What `open` asks of a file: the header passes the checks and the L1 table is inside. -/
structure Opens (bytes : List UInt8) : Prop where
  header : HeaderChecks bytes
  l1Inside : (u64At bytes 40).toNat + (u32At bytes 36).toNat * 8 ≤ bytes.length

/-- Whatever is in the file, `open` reads and allocates inside it. A reader is returned for a
file that is as it asks, and is a view of the image. -/
theorem openImage_exact (data : FileData) :
    Triple (Input.Safe data.bytes) Qcow2Reader.openImage
      (fun r s => s.Safe data.bytes ∧ Reads (.ofBytes data.bytes) r ∧ Opens data.bytes)
      (Refused data.bytes (Opens data.bytes)) := by
  have hsize := data.size_lt
  unfold Qcow2Reader.openImage
  apply Triple.step ((readHeader_exact data).imp_error
    fun _ _ he => ⟨he.1, fun hopens => he.2 hopens.header⟩)
  rintro h ⟨hh, hchecks⟩
  have hl1 : (h.l1Size * 8).toNat = h.l1Size.toNat * 8 := by
    have height : (8 : UInt64).toNat = 8 := rfl
    have hlt := (u32At data.bytes 36).toNat_lt
    rw [UInt64.toNat_mul, hh.l1Size, UInt32.toNat_toUInt64, height]
    exact Nat.mod_eq_of_lt (by omega)
  have hinside : h.fileLen < checkedEnd h.l1TableOffset (h.l1Size * 8) ↔
      data.bytes.length < (u64At data.bytes 40).toNat + (u32At data.bytes 36).toNat * 8 := by
    rw [lt_checkedEnd_iff (by rw [hh.fileLen]; exact hsize), hh.fileLen, hl1, hh.l1TableOffset,
      hh.l1Size, UInt32.toNat_toUInt64]
  apply Triple.step (refuse_exact fun hopens hbad =>
    absurd hopens.l1Inside (Nat.not_le.mpr (hinside.mp hbad)))
  intro _ hin
  have hopens : Opens data.bytes := ⟨hchecks, Nat.le_of_not_lt (hinside.not.mp hin)⟩
  rw [lt_checkedEnd_iff (by rw [hh.fileLen]; exact hsize), hh.fileLen, hl1] at hin
  apply Triple.step (Input.allocate_spec (by omega))
  intro _ _
  apply Triple.bind (Input.seek_spec (by omega))
  intro _
  apply Triple.step (Input.readExact_spec (by omega))
  intro l1Raw hraw
  apply Triple.step (Input.allocate_spec (by omega))
  intro _ _
  have hlength : l1Raw.length = h.l1Size.toNat * 8 := by
    rw [hraw, List.length_take, List.length_drop]
    omega
  apply Triple.step (parseTable_spec (by rw [hlength]; omega))
  intro l1Table htable
  apply Triple.step get_spec
  intro input hinput
  apply Triple.pure
  intro s hs
  have hbits : h.clusterBits.toNat = (u32At data.bytes 20).toNat := by rw [hh.clusterBits]
  have hcluster : ((1 : UInt64) <<< h.clusterBits.toUInt64).toNat = 2 ^ h.clusterBits.toNat := by
    have hpow : 2 ^ h.clusterBits.toNat ≤ 2 ^ 21 := Nat.pow_le_pow_right (by norm_num) hh.bits.2
    have hshift : h.clusterBits.toNat % 64 = h.clusterBits.toNat :=
      Nat.mod_eq_of_lt (lt_of_le_of_lt hh.bits.2 (by norm_num))
    rw [UInt64.toNat_shiftLeft, UInt32.toNat_toUInt64, hshift, UInt64.toNat_one, Nat.one_shiftLeft]
    exact Nat.mod_eq_of_lt (by omega)
  refine ⟨hs, ?_, hopens⟩
  constructor
  · exact hinput
  · exact hsize
  · have hrange := hh.bits
    rw [hbits] at hrange
    exact hrange
  · exact hh.fileLen
  · exact hbits
  · exact hcluster.trans (congrArg (2 ^ ·) hbits)
  · rw [hh.virtualSize]
    rfl
  · rw [UInt64.toNat_div, hcluster, hbits]
    rfl
  · rw [htable, hraw, hl1, Nat.zero_mul, tableAt_slice, hh.l1TableOffset, hh.l1Size,
      UInt32.toNat_toUInt64]
    rfl
  · intro hne
    exact absurd rfl hne

theorem openImage_spec (data : FileData) :
    Triple (Input.Safe data.bytes) Qcow2Reader.openImage
      (fun r s => s.Safe data.bytes ∧ Reads (.ofBytes data.bytes) r) (StoppedSafe data.bytes) :=
  (openImage_exact data).conseq (fun _ hs => hs) (fun _ _ hs => ⟨hs.1, hs.2.1⟩)
    fun _ _ he => he.1

end Caiman.Bridge
