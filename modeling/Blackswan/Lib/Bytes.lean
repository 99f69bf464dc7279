import Mathlib.Data.Nat.Notation
import Mathlib.Logic.Function.Defs
import Blackswan.Lib.Outcome

/-!
# Words in memory

How a host of either byte order reads words from bytes, the conversion to network byte order, and
loads from a range of memory outside of which a read is a fault.
-/

namespace Lib

/-- Byte order of the host. -/
inductive Endian where
  | little
  | big
  deriving DecidableEq, Repr

/-! ## Words -/

/-- The 32-bit word that the host sees in four bytes. -/
def fromNeBytes (host : Endian) (bytes : Vector UInt8 4) : UInt32 :=
  match host with
  | .little => .ofNat (bytes[0].toNat + 0x100 * bytes[1].toNat + 0x10000 * bytes[2].toNat +
      0x1000000 * bytes[3].toNat)
  | .big => .ofNat (bytes[3].toNat + 0x100 * bytes[2].toNat + 0x10000 * bytes[1].toNat +
      0x1000000 * bytes[0].toNat)

/-- The 16-bit word that the host sees in two bytes. -/
def fromNeBytes16 (host : Endian) (b₀ b₁ : UInt8) : UInt16 :=
  match host with
  | .little => .ofNat (b₀.toNat + 0x100 * b₁.toNat)
  | .big => .ofNat (b₁.toNat + 0x100 * b₀.toNat)

def swapBytes (x : UInt16) : UInt16 := .ofNat (x.toNat / 0x100 + 0x100 * (x.toNat % 0x100))

/-- Between host and network byte order, in either direction. -/
def htons (host : Endian) (x : UInt16) : UInt16 :=
  match host with
  | .little => swapBytes x
  | .big => x

def ntohs (host : Endian) (x : UInt16) : UInt16 := htons host x

/-- A word holds each of its bytes, whichever way the host reads it. -/
theorem fromNeBytes_injective (host : Endian) : Function.Injective (fromNeBytes host) := by
  intro a b h
  have ha := fun i (hi : i < 4) => a[i].toNat_lt
  have hb := fun i (hi : i < 4) => b[i].toNat_lt
  have h0 := ha 0 (by decide)
  have h1 := ha 1 (by decide)
  have h2 := ha 2 (by decide)
  have h3 := ha 3 (by decide)
  have k0 := hb 0 (by decide)
  have k1 := hb 1 (by decide)
  have k2 := hb 2 (by decide)
  have k3 := hb 3 (by decide)
  have hbytes : a[0].toNat = b[0].toNat ∧ a[1].toNat = b[1].toNat ∧ a[2].toNat = b[2].toNat ∧
      a[3].toNat = b[3].toNat := by
    have hnat := congrArg UInt32.toNat h
    rcases host with _ | _ <;>
      simp only [fromNeBytes, UInt32.toNat_ofNat'] at hnat <;> omega
  obtain ⟨e0, e1, e2, e3⟩ := hbytes
  refine Vector.ext fun i hi => ?_
  match i, hi with
  | 0, _ => exact UInt8.toNat_inj.mp e0
  | 1, _ => exact UInt8.toNat_inj.mp e1
  | 2, _ => exact UInt8.toNat_inj.mp e2
  | 3, _ => exact UInt8.toNat_inj.mp e3

theorem fromNeBytes16_inj {host : Endian} {a b c d : UInt8} :
    fromNeBytes16 host a b = fromNeBytes16 host c d ↔ a = c ∧ b = d := by
  constructor
  · intro h
    have ha := a.toNat_lt
    have hb := b.toNat_lt
    have hc := c.toNat_lt
    have hd := d.toNat_lt
    have hnat := congrArg UInt16.toNat h
    rw [← UInt8.toNat_inj, ← UInt8.toNat_inj]
    rcases host with _ | _ <;>
      simp only [fromNeBytes16, UInt16.toNat_ofNat'] at hnat <;> omega
  · rintro ⟨rfl, rfl⟩
    rfl

/-- A constant in network byte order is the word its bytes make, most significant first. -/
theorem htons_eq (host : Endian) {x : UInt16} {hi lo : UInt8} (h : x = fromNeBytes16 .big hi lo) :
    htons host x = fromNeBytes16 host hi lo := by
  subst h
  rcases host with _ | _
  · have hhi := hi.toNat_lt
    have hlo := lo.toNat_lt
    have hword : (lo.toNat + 0x100 * hi.toNat) % 0x10000 = lo.toNat + 0x100 * hi.toNat := by omega
    have hhigh : (lo.toNat + 0x100 * hi.toNat) / 0x100 = hi.toNat := by omega
    have hlow : (lo.toNat + 0x100 * hi.toNat) % 0x100 = lo.toNat := by omega
    rw [← UInt16.toNat_inj]
    simp only [htons, swapBytes, fromNeBytes16, UInt16.toNat_ofNat']
    rw [hword, hhigh, hlow]
  · rfl

theorem toNat_fromNeBytes16_big (hi lo : UInt8) :
    (fromNeBytes16 .big hi lo).toNat = 0x100 * hi.toNat + lo.toNat := by
  have hhi := hi.toNat_lt
  have hlo := lo.toNat_lt
  simp only [fromNeBytes16, UInt16.toNat_ofNat']
  omega

theorem exists_fromNeBytes16_big (x : UInt16) : ∃ hi lo, x = fromNeBytes16 .big hi lo := by
  have hx := x.toNat_lt
  refine ⟨.ofNat (x.toNat / 0x100), .ofNat (x.toNat % 0x100), ?_⟩
  rw [← UInt16.toNat_inj, toNat_fromNeBytes16_big, UInt8.toNat_ofNat', UInt8.toNat_ofNat']
  omega

/-- Converting twice gives the number back. -/
theorem htons_htons (host : Endian) (x : UInt16) : htons host (htons host x) = x := by
  obtain ⟨hi, lo, rfl⟩ := exists_fromNeBytes16_big x
  cases host with
  | little =>
    have hswapped : htons .little (fromNeBytes16 .big lo hi) = fromNeBytes16 .little lo hi :=
      htons_eq .little rfl
    rw [htons_eq .little rfl]
    exact hswapped
  | big => rfl

/-- Two bytes of a packet are a number in network byte order. -/
theorem toNat_ntohs (host : Endian) (hi lo : UInt8) :
    (ntohs host (fromNeBytes16 host hi lo)).toNat = 0x100 * hi.toNat + lo.toNat := by
  rw [← htons_eq host rfl, ntohs, htons_htons, toNat_fromNeBytes16_big]

/-- Comparing with a converted constant compares with the number. -/
theorem fromNeBytes16_eq_htons_iff {host : Endian} {hi lo : UInt8} {x : UInt16} :
    fromNeBytes16 host hi lo = htons host x ↔ 0x100 * hi.toNat + lo.toNat = x.toNat := by
  rw [← htons_eq host rfl, ← toNat_fromNeBytes16_big, UInt16.toNat_inj]
  constructor
  · intro h
    rw [← htons_htons host (fromNeBytes16 .big hi lo), h, htons_htons]
  · intro h
    rw [h]

/-! ## Loads -/

section
variable {ε : Type} {mem : List UInt8} {i : ℕ} {host : Endian}

/-- Reading outside of the memory is a fault. -/
def load8 (mem : List UInt8) (i : ℕ) : Outcome ε UInt8 :=
  match mem[i]? with
  | some b => .ok b
  | none => .panic

def load16 (host : Endian) (mem : List UInt8) (i : ℕ) : Outcome ε UInt16 :=
  (load8 mem i).bind fun b₀ => (load8 mem (i + 1)).bind fun b₁ => .ok (fromNeBytes16 host b₀ b₁)

def load32 (host : Endian) (mem : List UInt8) (i : ℕ) : Outcome ε UInt32 :=
  (load8 mem i).bind fun b₀ => (load8 mem (i + 1)).bind fun b₁ =>
    (load8 mem (i + 2)).bind fun b₂ => (load8 mem (i + 3)).bind fun b₃ =>
      .ok (fromNeBytes host #v[b₀, b₁, b₂, b₃])

/-- Writing outside of the memory is a fault, too. -/
def store8 (mem : List UInt8) (i : ℕ) (b : UInt8) : Outcome ε (List UInt8) :=
  if i < mem.length then .ok (mem.set i b) else .panic

theorem load8_of_lt (h : i < mem.length) :
    (load8 mem i : Outcome ε UInt8) = .ok (mem.getD i 0) := by
  rw [load8, List.getD_eq_getElem?_getD, List.getElem?_eq_getElem h]
  rfl

theorem load16_of_lt (h : i + 1 < mem.length) : (load16 host mem i : Outcome ε UInt16) =
    .ok (fromNeBytes16 host (mem.getD i 0) (mem.getD (i + 1) 0)) := by
  rw [load16, load8_of_lt (by omega), load8_of_lt h]
  rfl

theorem load32_of_lt (h : i + 3 < mem.length) : (load32 host mem i : Outcome ε UInt32) =
    .ok (fromNeBytes host #v[mem.getD i 0, mem.getD (i + 1) 0, mem.getD (i + 2) 0,
      mem.getD (i + 3) 0]) := by
  rw [load32, load8_of_lt (by omega), load8_of_lt (by omega), load8_of_lt (by omega),
    load8_of_lt h]
  rfl

/-- A load behind a block of memory does not see the block. -/
@[simp] theorem load8_append (pre mem : List UInt8) (i : ℕ) :
    (load8 (pre ++ mem) (pre.length + i) : Outcome ε UInt8) = load8 mem i := by
  rw [load8, load8, List.getElem?_append_right (Nat.le_add_right _ _), Nat.add_sub_cancel_left]

@[simp] theorem load16_append (host : Endian) (pre mem : List UInt8) (i : ℕ) :
    (load16 host (pre ++ mem) (pre.length + i) : Outcome ε UInt16) = load16 host mem i := by
  rw [load16, load16, load8_append, Nat.add_assoc, load8_append]

@[simp] theorem load32_append (host : Endian) (pre mem : List UInt8) (i : ℕ) :
    (load32 host (pre ++ mem) (pre.length + i) : Outcome ε UInt32) = load32 host mem i := by
  rw [load32, load32, load8_append, Nat.add_assoc, Nat.add_assoc, Nat.add_assoc, load8_append,
    load8_append, load8_append]

theorem drop_of_load8 {b : UInt8} (h : (load8 mem i : Outcome ε UInt8) = .ok b) :
    mem.drop i = b :: mem.drop (i + 1) := by
  unfold load8 at h
  rcases hb : mem[i]? with _ | b'
  · rw [hb] at h
    cases h
  · rw [hb] at h
    cases h
    obtain ⟨hi, rfl⟩ := List.getElem?_eq_some_iff.mp hb
    exact List.drop_eq_getElem_cons hi

theorem drop_of_load16 {w : UInt16} (h : (load16 host mem i : Outcome ε UInt16) = .ok w) :
    ∃ b₀ b₁, mem.drop i = b₀ :: b₁ :: mem.drop (i + 2) ∧ w = fromNeBytes16 host b₀ b₁ := by
  obtain ⟨b₀, h₀, h⟩ := Outcome.bind_eq_ok.mp h
  obtain ⟨b₁, h₁, h⟩ := Outcome.bind_eq_ok.mp h
  cases h
  exact ⟨b₀, b₁, by rw [drop_of_load8 h₀, drop_of_load8 h₁], rfl⟩

theorem drop_of_load32 {w : UInt32} (h : (load32 host mem i : Outcome ε UInt32) = .ok w) :
    ∃ bytes : Vector UInt8 4,
      mem.drop i = bytes.toList ++ mem.drop (i + 4) ∧ w = fromNeBytes host bytes := by
  obtain ⟨b₀, h₀, h⟩ := Outcome.bind_eq_ok.mp h
  obtain ⟨b₁, h₁, h⟩ := Outcome.bind_eq_ok.mp h
  obtain ⟨b₂, h₂, h⟩ := Outcome.bind_eq_ok.mp h
  obtain ⟨b₃, h₃, h⟩ := Outcome.bind_eq_ok.mp h
  cases h
  refine ⟨#v[b₀, b₁, b₂, b₃], ?_, rfl⟩
  rw [drop_of_load8 h₀, drop_of_load8 h₁, drop_of_load8 h₂, drop_of_load8 h₃]
  rfl

/-- A load returns or faults. -/
@[simp] theorem onlyErr_load8 (e : ε) (mem : List UInt8) (i : ℕ) : (load8 mem i).OnlyErr e := by
  unfold load8
  split <;> simp

@[simp] theorem onlyErr_load16 (e : ε) (host : Endian) (mem : List UInt8) (i : ℕ) :
    (load16 host mem i).OnlyErr e :=
  .bind (onlyErr_load8 e mem i) fun _ => .bind (onlyErr_load8 e mem (i + 1)) fun _ =>
    Outcome.onlyErr_ok e _

@[simp] theorem onlyErr_load32 (e : ε) (host : Endian) (mem : List UInt8) (i : ℕ) :
    (load32 host mem i).OnlyErr e :=
  .bind (onlyErr_load8 e mem i) fun _ => .bind (onlyErr_load8 e mem (i + 1)) fun _ =>
    .bind (onlyErr_load8 e mem (i + 2)) fun _ => .bind (onlyErr_load8 e mem (i + 3)) fun _ =>
      Outcome.onlyErr_ok e _

end

end Lib
