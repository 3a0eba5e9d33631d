import Mathlib

/-! The address filter of outgoing requests. Two copies of it stand in the source, one for the fetches
of the HTTP signature driver and one for those of the application. An IPv6 address that carries an IPv4
address is looked into in one form only; two other forms are refused as a whole. -/

namespace Emumet

namespace Ssrf

/-- `Ipv4Addr`, by its octets. -/
structure Ipv4Addr where
  a : BitVec 8
  b : BitVec 8
  c : BitVec 8
  d : BitVec 8
  deriving DecidableEq, Repr

namespace Ipv4Addr

def isPrivate (ip : Ipv4Addr) : Bool :=
  ip.a = 10 || (ip.a = 172 && ip.b &&& 0xf0 = 16) || (ip.a = 192 && ip.b = 168)

def isLoopback (ip : Ipv4Addr) : Bool := ip.a = 127

def isLinkLocal (ip : Ipv4Addr) : Bool := ip.a = 169 && ip.b = 254

def isBroadcast (ip : Ipv4Addr) : Bool := ip = ⟨255, 255, 255, 255⟩

def isDocumentation (ip : Ipv4Addr) : Bool :=
  (ip.a = 192 && ip.b = 0 && ip.c = 2) || (ip.a = 198 && ip.b = 51 && ip.c = 100) ||
    (ip.a = 203 && ip.b = 0 && ip.c = 113)

def isMulticast (ip : Ipv4Addr) : Bool := 224 ≤ ip.a && ip.a ≤ 239

def isUnspecified (ip : Ipv4Addr) : Bool := ip = ⟨0, 0, 0, 0⟩

/-- The first and the second half of the 32 bits. -/
def upper (ip : Ipv4Addr) : BitVec 16 := ip.a ++ ip.b

def lower (ip : Ipv4Addr) : BitVec 16 := ip.c ++ ip.d

end Ipv4Addr

/-- `Ipv6Addr`, by its segments. -/
structure Ipv6Addr where
  s0 : BitVec 16
  s1 : BitVec 16
  s2 : BitVec 16
  s3 : BitVec 16
  s4 : BitVec 16
  s5 : BitVec 16
  s6 : BitVec 16
  s7 : BitVec 16
  deriving DecidableEq, Repr

namespace Ipv6Addr

def toIpv4Mapped (ip : Ipv6Addr) : Option Ipv4Addr :=
  if ip.s0 = 0 ∧ ip.s1 = 0 ∧ ip.s2 = 0 ∧ ip.s3 = 0 ∧ ip.s4 = 0 ∧ ip.s5 = 0xffff then
    some ⟨ip.s6.extractLsb' 8 8, ip.s6.extractLsb' 0 8, ip.s7.extractLsb' 8 8, ip.s7.extractLsb' 0 8⟩
  else none

def isLoopback (ip : Ipv6Addr) : Bool := ip = ⟨0, 0, 0, 0, 0, 0, 0, 1⟩

def isUnspecified (ip : Ipv6Addr) : Bool := ip = ⟨0, 0, 0, 0, 0, 0, 0, 0⟩

def isMulticast (ip : Ipv6Addr) : Bool := ip.s0 &&& 0xff00 = 0xff00

end Ipv6Addr

/-! ### The filter -/

/-- The text of `is_blocked_ipv4`, the same in both copies. -/
def blockedIpv4 (ip : Ipv4Addr) : Bool :=
  ip.isPrivate || ip.isLoopback || ip.isLinkLocal || ip.isBroadcast || ip.isDocumentation ||
    ip.isMulticast || ip.isUnspecified || ip.a = 0 || 224 ≤ ip.a ||
    (ip.a = 100 && 64 ≤ ip.b && ip.b ≤ 127) || (ip.a = 198 && 18 ≤ ip.b && ip.b ≤ 19) ||
    (ip.a = 192 && ip.b = 0 && ip.c = 0)

/-- The text of `is_blocked_ipv6`, the same in both copies. -/
def blockedIpv6 (isBlockedIpv4 : Ipv4Addr → Bool) (ip : Ipv6Addr) : Bool :=
  match ip.toIpv4Mapped with
  | some ipv4 => isBlockedIpv4 ipv4
  | none =>
      ip.isLoopback || ip.isUnspecified || ip.isMulticast || ip.s0 &&& 0xfe00 = 0xfc00 ||
        ip.s0 &&& 0xffc0 = 0xfe80 || (ip.s0 = 0x2001 && ip.s1 = 0x0db8) || ip.s0 = 0x2002 ||
        (ip.s0 = 0x2001 && ip.s1 = 0)

/-- The two copies: `http_signing/ssrf.rs` and `activitypub/fetch.rs`. -/
inductive Copy where
  | httpSigning
  | activitypub
  deriving DecidableEq, Repr

def Copy.isBlockedIpv4 : Copy → Ipv4Addr → Bool
  | .httpSigning => blockedIpv4
  | .activitypub => blockedIpv4

def Copy.isBlockedIpv6 : Copy → Ipv6Addr → Bool
  | .httpSigning => blockedIpv6 Copy.httpSigning.isBlockedIpv4
  | .activitypub => blockedIpv6 Copy.activitypub.isBlockedIpv4

/-! ### Embedded addresses -/

/-- The standard ways for an IPv6 address to carry an IPv4 address. -/
inductive Embedding where
  | mapped
  | compatible
  | nat64
  | sixToFour
  | teredo
  deriving DecidableEq, Repr

/-- A Teredo address carries the address of its server, and that of its client inverted. -/
def Embedding.Carries (v : Ipv4Addr) (ip : Ipv6Addr) : Embedding → Prop
  | .mapped => ip = ⟨0, 0, 0, 0, 0, 0xffff, v.upper, v.lower⟩
  | .compatible => ip = ⟨0, 0, 0, 0, 0, 0, v.upper, v.lower⟩
  | .nat64 => ip = ⟨0x64, 0xff9b, 0, 0, 0, 0, v.upper, v.lower⟩
  | .sixToFour => ip.s0 = 0x2002 ∧ ip.s1 = v.upper ∧ ip.s2 = v.lower
  | .teredo => ip.s0 = 0x2001 ∧ ip.s1 = 0 ∧
      (ip.s2 = v.upper ∧ ip.s3 = v.lower ∨ ip.s6 = ~~~v.upper ∧ ip.s7 = ~~~v.lower)

/-- The embeddings the filter covers; of the compatible addresses it knows `::` and `::1`. -/
def Embedding.Covered (v : Ipv4Addr) : Embedding → Prop
  | .mapped => True
  | .compatible => v = ⟨0, 0, 0, 0⟩ ∨ v = ⟨0, 0, 0, 1⟩
  | .nat64 => False
  | .sixToFour => True
  | .teredo => True

variable {v : Ipv4Addr} {ip : Ipv6Addr}

/-- The octets are read back from the two halves. -/
theorem octets_of_halves (v : Ipv4Addr) :
    (⟨v.upper.extractLsb' 8 8, v.upper.extractLsb' 0 8, v.lower.extractLsb' 8 8,
      v.lower.extractLsb' 0 8⟩ : Ipv4Addr) = v := by
  obtain ⟨a, b, c, d⟩ := v
  rw [Ipv4Addr.mk.injEq]
  exact ⟨BitVec.extractLsb'_append_eq_left, BitVec.extractLsb'_append_eq_right,
    BitVec.extractLsb'_append_eq_left, BitVec.extractLsb'_append_eq_right⟩

theorem blockedIpv6_mapped (isBlockedIpv4 : Ipv4Addr → Bool) (h : Embedding.mapped.Carries v ip) :
    blockedIpv6 isBlockedIpv4 ip = isBlockedIpv4 v := by
  subst h
  simp only [blockedIpv6, Ipv6Addr.toIpv4Mapped, and_self, if_true, octets_of_halves]

theorem halves_eq_iff {w : Ipv4Addr} : v.upper = w.upper ∧ v.lower = w.lower ↔ v = w := by
  constructor
  · rintro ⟨hupper, hlower⟩
    rw [← octets_of_halves v, hupper, hlower, octets_of_halves]
  · rintro rfl
    exact ⟨rfl, rfl⟩

theorem blockedIpv6_compatible (isBlockedIpv4 : Ipv4Addr → Bool)
    (h : Embedding.compatible.Carries v ip) :
    blockedIpv6 isBlockedIpv4 ip = true ↔ v = ⟨0, 0, 0, 0⟩ ∨ v = ⟨0, 0, 0, 1⟩ := by
  have hmapped : ip.toIpv4Mapped = none := by
    subst h
    rfl
  -- only the loopback and the unspecified address start with six zero segments
  have hrest : blockedIpv6 isBlockedIpv4 ip = (ip.isLoopback || ip.isUnspecified) := by
    subst h
    simp only [blockedIpv6, hmapped]
    simp [Ipv6Addr.isMulticast]
  have hloopback : ip.isLoopback = true ↔ v = ⟨0, 0, 0, 1⟩ := by
    subst h
    rw [← halves_eq_iff]
    simp [Ipv6Addr.isLoopback, Ipv4Addr.upper, Ipv4Addr.lower]
  have hunspecified : ip.isUnspecified = true ↔ v = ⟨0, 0, 0, 0⟩ := by
    subst h
    rw [← halves_eq_iff]
    simp [Ipv6Addr.isUnspecified, Ipv4Addr.upper, Ipv4Addr.lower]
  rw [hrest, Bool.or_eq_true, hloopback, hunspecified, or_comm]

theorem blockedIpv6_nat64 (isBlockedIpv4 : Ipv4Addr → Bool) (h : Embedding.nat64.Carries v ip) :
    blockedIpv6 isBlockedIpv4 ip = false := by
  subst h
  simp [blockedIpv6, Ipv6Addr.toIpv4Mapped, Ipv6Addr.isLoopback, Ipv6Addr.isUnspecified,
    Ipv6Addr.isMulticast]

theorem blockedIpv6_sixToFour (isBlockedIpv4 : Ipv4Addr → Bool)
    (h : Embedding.sixToFour.Carries v ip) : blockedIpv6 isBlockedIpv4 ip = true := by
  simp [blockedIpv6, Ipv6Addr.toIpv4Mapped, h.1]

theorem blockedIpv6_teredo (isBlockedIpv4 : Ipv4Addr → Bool) (h : Embedding.teredo.Carries v ip) :
    blockedIpv6 isBlockedIpv4 ip = true := by
  simp [blockedIpv6, Ipv6Addr.toIpv4Mapped, h.1, h.2.1]

/-- A blocked IPv4 address that an IPv6 address carries is blocked exactly in the forms that are
covered, in both copies. -/
theorem embedded_ipv4_blocked_iff (copy : Copy) (v : Ipv4Addr) (hblocked : copy.isBlockedIpv4 v = true)
    (embedding : Embedding) (ip : Ipv6Addr) (hcarries : embedding.Carries v ip) :
    copy.isBlockedIpv6 ip = true ↔ embedding.Covered v := by
  have hcopy : copy.isBlockedIpv6 ip = blockedIpv6 copy.isBlockedIpv4 ip := by
    cases copy <;> rfl
  rw [hcopy]
  cases embedding with
  | mapped => rw [blockedIpv6_mapped _ hcarries]; exact iff_of_true hblocked trivial
  | compatible => exact blockedIpv6_compatible _ hcarries
  | nat64 => rw [blockedIpv6_nat64 _ hcarries]; exact iff_of_false Bool.false_ne_true id
  | sixToFour => exact iff_of_true (blockedIpv6_sixToFour _ hcarries) trivial
  | teredo => exact iff_of_true (blockedIpv6_teredo _ hcarries) trivial

def localhost : Ipv4Addr := ⟨127, 0, 0, 1⟩

theorem embedded_ipv4_blocked_localhost :
    Copy.httpSigning.isBlockedIpv4 localhost = true ∧
      Copy.httpSigning.isBlockedIpv6 ⟨0, 0, 0, 0, 0, 0xffff, 0x7f00, 1⟩ = true :=
  ⟨by decide, (embedded_ipv4_blocked_iff .httpSigning localhost (by decide) .mapped
    ⟨0, 0, 0, 0, 0, 0xffff, 0x7f00, 1⟩ (by rfl)).mpr trivial⟩

/-- The same address passes in its compatible and in its NAT64 form. -/
theorem localhost_passes_embedded :
    let compatible : Ipv6Addr := ⟨0, 0, 0, 0, 0, 0, 0x7f00, 1⟩
    let nat64 : Ipv6Addr := ⟨0x64, 0xff9b, 0, 0, 0, 0, 0x7f00, 1⟩
    Copy.httpSigning.isBlockedIpv4 localhost = true ∧ Copy.activitypub.isBlockedIpv4 localhost = true ∧
      Embedding.compatible.Carries localhost compatible ∧ Embedding.nat64.Carries localhost nat64 ∧
      Copy.httpSigning.isBlockedIpv6 compatible = false ∧ Copy.httpSigning.isBlockedIpv6 nat64 = false ∧
      Copy.activitypub.isBlockedIpv6 compatible = false ∧ Copy.activitypub.isBlockedIpv6 nat64 = false :=
  ⟨by decide, by decide, by rfl, by rfl, by decide, by decide, by decide, by decide⟩

end Ssrf

end Emumet
