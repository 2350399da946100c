import Mathlib.Data.List.Nodup
import Caiman.Vmm.Virtio.Blk

/-!
# Descriptor chains

What a driver has put in the descriptor table, read in exact arithmetic, against
what `read_chain` returns. The loop leaves at 65 descriptors whatever the table
holds, so it ends on a table with a cycle and cuts a longer chain.
-/

namespace Caiman.Vmm

open Lib

def Descriptor.decode (bytes : List UInt8) : Descriptor where
  addr := UInt64.ofNat (leNat (bytes.take 8))
  len := UInt32.ofNat (leNat ((bytes.drop 8).take 4))
  flags := UInt16.ofNat (leNat ((bytes.drop 12).take 2))
  next := UInt16.ofNat (leNat ((bytes.drop 14).take 2))

namespace Virtqueue

/-! ## The chain in the table -/

def entryAddr (q : Virtqueue) (idx : UInt16) : Nat := q.descTable.toNat + 16 * idx.toNat

def descAt (q : Virtqueue) (mem : GuestMemory) (idx : UInt16) : Option Descriptor :=
  if idx < q.size ∧ mem.Mapped (q.entryAddr idx) 16 then
    some (Descriptor.decode (mem.load (q.entryAddr idx) 16))
  else none

/-- The indices and descriptors from `idx` to a descriptor without `F_NEXT`, if there
is one within `n` steps. -/
def follow (q : Virtqueue) (mem : GuestMemory) : Nat → UInt16 → Option (List (UInt16 × Descriptor))
  | 0, _ => none
  | n + 1, idx =>
      match q.descAt mem idx with
      | none => none
      | some desc =>
          if desc.hasNext then (follow q mem n desc.next).map ((idx, desc) :: ·)
          else some [(idx, desc)]

/-- At most queue-size steps through distinct indices in range reach the last
descriptor. -/
def Legal (q : Virtqueue) (mem : GuestMemory) (head : UInt16) (chain : List Descriptor) : Prop :=
  ∃ links, q.follow mem q.size.toNat head = some links ∧ (links.map Prod.fst).Nodup ∧
    links.map Prod.snd = chain

/-! ## The loop of `read_chain` -/

/-- The loop, with no bound on its rounds, ends with `result`. -/
inductive ReadsChain (q : Virtqueue) (mem : GuestMemory) :
    UInt16 → List Descriptor → Exec (List Descriptor) → Prop
  | halt {idx : UInt16} {chain : List Descriptor} {why : Halt}
      (read : q.readDesc mem idx = .error why) : ReadsChain q mem idx chain (.error why)
  | unreadable {idx : UInt16} {chain : List Descriptor} (read : q.readDesc mem idx = .ok none) :
      ReadsChain q mem idx chain (.ok chain)
  | last {idx : UInt16} {chain : List Descriptor} {desc : Descriptor}
      (read : q.readDesc mem idx = .ok (some desc))
      (stop : desc.hasNext = false ∨ 64 < (chain ++ [desc]).length) :
      ReadsChain q mem idx chain (.ok (chain ++ [desc]))
  | next {idx : UInt16} {chain : List Descriptor} {desc : Descriptor}
      {result : Exec (List Descriptor)} (read : q.readDesc mem idx = .ok (some desc))
      (more : desc.hasNext = true) (short : (chain ++ [desc]).length ≤ 64)
      (rest : ReadsChain q mem desc.next (chain ++ [desc]) result) :
      ReadsChain q mem idx chain result

variable {q : Virtqueue} {mem : GuestMemory}

theorem readChainLoop_succ (q : Virtqueue) (mem : GuestMemory) (fuel : Nat) (idx : UInt16)
    (chain : List Descriptor) :
    q.readChainLoop mem (fuel + 1) idx chain =
      match q.readDesc mem idx with
      | .error why => .error why
      | .ok none => .ok chain
      | .ok (some desc) =>
          if desc.hasNext = false ∨ 64 < (chain ++ [desc]).length then .ok (chain ++ [desc])
          else q.readChainLoop mem fuel desc.next (chain ++ [desc]) := by
  simp only [readChainLoop, bind, Except.bind, pure, Except.pure]
  cases q.readDesc mem idx with
  | error why => rfl
  | ok read =>
      cases read with
      | none => rfl
      | some desc =>
          simp only [Bool.or_eq_true, Bool.not_eq_true', decide_eq_true_iff, gt_iff_lt]

theorem readsChain_loop (idx : UInt16) {chain : List Descriptor} {fuel : Nat}
    (hlen : chain.length + fuel = 65) (hfuel : fuel ≠ 0) :
    ReadsChain q mem idx chain (q.readChainLoop mem fuel idx chain) := by
  induction fuel generalizing idx chain with
  | zero => exact absurd rfl hfuel
  | succ fuel ih =>
      rw [readChainLoop_succ]
      cases hread : q.readDesc mem idx with
      | error why => exact .halt hread
      | ok read =>
          cases read with
          | none => exact .unreadable hread
          | some desc =>
              dsimp only
              have hgrown : (chain ++ [desc]).length = chain.length + 1 := by simp
              by_cases hstop : desc.hasNext = false ∨ 64 < (chain ++ [desc]).length
              · rw [if_pos hstop]
                exact .last hread hstop
              · rw [if_neg hstop]
                obtain ⟨hmore, hshort⟩ := not_or.mp hstop
                refine .next hread (by simpa using hmore) (by omega) ?_
                apply ih desc.next <;> omega

theorem ReadsChain.eq_loop {idx : UInt16} {chain : List Descriptor}
    {result : Exec (List Descriptor)} (h : ReadsChain q mem idx chain result) {fuel : Nat}
    (hlen : chain.length + fuel = 65) (hfuel : fuel ≠ 0) :
    result = q.readChainLoop mem fuel idx chain := by
  induction h generalizing fuel with
  | halt read =>
      obtain ⟨fuel, rfl⟩ := Nat.exists_eq_succ_of_ne_zero hfuel
      rw [readChainLoop_succ, read]
  | unreadable read =>
      obtain ⟨fuel, rfl⟩ := Nat.exists_eq_succ_of_ne_zero hfuel
      rw [readChainLoop_succ, read]
  | last read stop =>
      obtain ⟨fuel, rfl⟩ := Nat.exists_eq_succ_of_ne_zero hfuel
      rw [readChainLoop_succ, read]
      exact (if_pos stop).symm
  | @next idx chain desc result read more short rest ih =>
      obtain ⟨fuel, rfl⟩ := Nat.exists_eq_succ_of_ne_zero hfuel
      have hgo : ¬ (desc.hasNext = false ∨ 64 < (chain ++ [desc]).length) := by
        intro hstop
        rcases hstop with hlast | hlong
        · rw [more] at hlast
          cases hlast
        · omega
      rw [readChainLoop_succ, read]
      simp only [if_neg hgo]
      rw [List.length_append, List.length_singleton] at short
      apply ih
      · rw [List.length_append, List.length_singleton]
        omega
      · omega

theorem readsChain_iff {head : UInt16} {result : Exec (List Descriptor)} :
    ReadsChain q mem head [] result ↔ result = q.readChain mem head := by
  constructor
  · intro h
    exact h.eq_loop rfl (by decide)
  · intro h
    rw [h]
    exact readsChain_loop head rfl (by decide)

/-! ## Legal chains -/

theorem descAt_eq_some {idx : UInt16} {desc : Descriptor} :
    q.descAt mem idx = some desc ↔ idx < q.size ∧ mem.Mapped (q.entryAddr idx) 16 ∧
      Descriptor.decode (mem.load (q.entryAddr idx) 16) = desc := by
  rw [descAt]
  split
  next h => simp only [h, true_and, Option.some.injEq]
  next h =>
      refine iff_of_false (by simp) ?_
      rintro ⟨hidx, hmapped, -⟩
      exact h ⟨hidx, hmapped⟩

theorem readDesc_of_descAt (htable : q.descTable ≠ 0) {idx : UInt16} {desc : Descriptor}
    (h : q.descAt mem idx = some desc) : q.readDesc mem idx = .ok (some desc) := by
  obtain ⟨hidx, hmapped, rfl⟩ := descAt_eq_some.mp h
  have h16 : (16 : UInt64).toNat = 16 := rfl
  have hlt := hmapped.lt
  have haddr : (q.descTable + idx.toUInt64 * 16).toNat = q.entryAddr idx := by
    simp only [entryAddr, UInt64.toNat_add, UInt64.toNat_mul, UInt16.toNat_toUInt64, h16] at hlt ⊢
    omega
  have hrange : ¬ (q.descTable = 0 ∨ q.size ≤ idx) := by
    intro hout
    rcases hout with hzero | hle
    · exact htable hzero
    · exact absurd hidx (UInt16.not_lt.mpr hle)
  simp only [readDesc, if_neg hrange, bind, Except.bind, pure, Except.pure,
    GuestMemory.readSlice_eq _ _ _ (show (16 : UInt64).toNat ≤ isizeMax by decide), haddr, h16,
    if_pos hmapped]
  rfl

/-- The loop returns the chain up to 65 descriptors. The induction is on the steps
that reach its end. -/
theorem readChainLoop_follow (htable : q.descTable ≠ 0) {n : Nat} {idx : UInt16}
    {links : List (UInt16 × Descriptor)} (h : q.follow mem n idx = some links) {fuel : Nat}
    {chain : List Descriptor} (hlen : chain.length + fuel = 65) (hfuel : fuel ≠ 0) :
    q.readChainLoop mem fuel idx chain = .ok (chain ++ (links.map Prod.snd).take fuel) := by
  induction n generalizing idx links fuel chain with
  | zero => cases h
  | succ n ih =>
      obtain ⟨fuel, rfl⟩ := Nat.exists_eq_succ_of_ne_zero hfuel
      rw [follow] at h
      split at h
      next => cases h
      next desc hdesc =>
          rw [readChainLoop_succ, readDesc_of_descAt htable hdesc]
          by_cases hmore : desc.hasNext = true
          · rw [if_pos hmore, Option.map_eq_some_iff] at h
            obtain ⟨links, hrest, rfl⟩ := h
            simp only [hmore, reduceCtorEq, false_or, List.length_append, List.length_singleton,
              List.map_cons, List.take_succ_cons]
            by_cases hfull : 64 < chain.length + 1
            · have hlast : fuel = 0 := by omega
              rw [if_pos hfull, hlast, List.take_zero]
            · rw [if_neg hfull, ih hrest (by simp; omega) (by omega), List.append_assoc,
                List.singleton_append]
          · rw [if_neg hmore, Option.some.injEq] at h
            subst h
            simp only [Bool.not_eq_true] at hmore
            simp only [hmore, true_or, if_true, List.map_cons, List.map_nil, List.take_succ_cons,
              List.take_nil]

theorem readChain_legal {head : UInt16} {chain : List Descriptor} (h : q.Legal mem head chain) :
    q.readChain mem head = .ok (if q.descTable = 0 then [] else chain.take 65) := by
  obtain ⟨links, hfollow, -, rfl⟩ := h
  by_cases htable : q.descTable = 0
  · rw [if_pos htable, readChain, readChainLoop_succ]
    simp only [readDesc, htable, true_or, if_true, pure, Except.pure]
  · rw [if_neg htable, readChain, readChainLoop_follow htable hfollow rfl (by decide)]
    rfl

theorem Legal.ne_nil {head : UInt16} {chain : List Descriptor} (h : q.Legal mem head chain) :
    chain ≠ [] := by
  obtain ⟨links, hfollow, -, rfl⟩ := h
  intro hnil
  rw [List.map_eq_nil_iff.mp hnil] at hfollow
  cases hsize : q.size.toNat with
  | zero =>
      rw [hsize] at hfollow
      cases hfollow
  | succ n =>
      rw [hsize, follow] at hfollow
      split at hfollow
      next => cases hfollow
      next =>
          split at hfollow
          next =>
              obtain ⟨links, -, hcons⟩ := Option.map_eq_some_iff.mp hfollow
              cases hcons
          next => cases hfollow

structure ReadsWhole (q : Virtqueue) (mem : GuestMemory) (head : UInt16)
    (chain : List Descriptor) : Prop where
  returned : q.readChain mem head = .ok chain
  status : ∀ hdrDesc dataDesc rest, q.readChain mem head = .ok (hdrDesc :: dataDesc :: rest) →
    chain.getLast? = some (Blk.BlkSystem.statusDesc dataDesc rest)

/-- `read_chain` ends on every table, and returns a legal chain whole exactly when it
has no more than 65 descriptors and the table is not at address zero. -/
theorem readChain_whole_iff (q : Virtqueue) (mem : GuestMemory) (head : UInt16) :
    (∃ result, ReadsChain q mem head [] result ∧
        ∀ result', ReadsChain q mem head [] result' → result' = result) ∧
      ∀ chain, q.Legal mem head chain →
        (ReadsWhole q mem head chain ↔ q.descTable ≠ 0 ∧ chain.length ≤ 65) := by
  constructor
  · refine ⟨q.readChain mem head, readsChain_iff.mpr rfl, ?_⟩
    intro result' h
    exact readsChain_iff.mp h
  · intro chain hlegal
    have hread := readChain_legal hlegal
    constructor
    · intro hwhole
      rw [hwhole.returned, Except.ok.injEq] at hread
      by_cases htable : q.descTable = 0
      · rw [if_pos htable] at hread
        exact absurd hread hlegal.ne_nil
      · rw [if_neg htable] at hread
        refine ⟨htable, ?_⟩
        rw [hread, List.length_take]
        exact Nat.min_le_left _ _
    · rintro ⟨htable, hlen⟩
      rw [if_neg htable, List.take_of_length_le hlen] at hread
      refine ⟨hread, ?_⟩
      intro hdrDesc dataDesc rest hcons
      rw [hread, Except.ok.injEq] at hcons
      rw [hcons, Blk.BlkSystem.statusDesc, List.getLast?_cons_cons]
      exact List.getLast?_eq_some_getLast _

/-! ## A chain of 66 descriptors -/

/-- Descriptor `i` of 66 that go on to the next one up to the last. -/
def longDesc (i : Nat) : Descriptor :=
  ⟨UInt64.ofNat (0x8000 + i), 1, if i < 65 then 1 else 0, UInt16.ofNat (i + 1)⟩

def longMemory : GuestMemory :=
  { GuestMemory.twoMib with
    low := { GuestMemory.twoMib.low with
      bytes := fun x => (longDesc ((x - 0x2000) / 16)).encode.getD ((x - 0x2000) % 16) 0 } }

def longQueue : Virtqueue := { Virtqueue.new 128 with descTable := 0x2000 }

def longLinks (i : Nat) : List (UInt16 × Descriptor) :=
  (List.range' i (66 - i)).map fun i => (UInt16.ofNat i, longDesc i)

theorem longQueue_legal : longQueue.Legal longMemory 0 ((longLinks 0).map Prod.snd) :=
  ⟨longLinks 0, by decide +kernel, by decide +kernel, rfl⟩

theorem longQueue_tail_whole :
    ReadsWhole longQueue longMemory 60 ((longLinks 60).map Prod.snd) := by
  have hlegal : longQueue.Legal longMemory 60 ((longLinks 60).map Prod.snd) :=
    ⟨longLinks 60, by decide +kernel, by decide, rfl⟩
  exact ((readChain_whole_iff longQueue longMemory 60).2 _ hlegal).mpr ⟨by decide, by decide⟩

theorem longChain_cut : ∃ q mem head chain, Legal q mem head chain ∧
    ¬ ReadsWhole q mem head chain := by
  refine ⟨longQueue, longMemory, 0, _, longQueue_legal, ?_⟩
  intro hwhole
  have hread := (readChain_legal longQueue_legal).symm.trans hwhole.returned
  rw [if_neg (by decide), Except.ok.injEq] at hread
  have hlen := congrArg List.length hread
  simp [longLinks] at hlen

end Virtqueue

end Caiman.Vmm
