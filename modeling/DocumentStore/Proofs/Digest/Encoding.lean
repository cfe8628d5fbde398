import DocumentStore.Digest.Encoding

/-!
Contract: a content digest names one hash, and so does a hexadecimal text.

Owns: the bytes behind a hexadecimal and behind a Base64 text, and the hash behind a content
digest.

Does not own: which contents share a hash.
-/

set_option autoImplicit false

namespace DocumentStore.Digest

/-! ### Hexadecimal -/

theorem hexValue?_digitChar {digit : Nat} (bound : digit < 16) :
    hexValue? (Nat.digitChar digit) = some digit := by
  have all : ∀ digit < 16, hexValue? (Nat.digitChar digit) = some digit := by decide
  exact all digit bound

/-- A hexadecimal text is read back as the bytes it was written from. -/
theorem ofHexadecimal?_hexadecimal (bytes : Bytes) :
    ofHexadecimal? (hexadecimal bytes) = some bytes := by
  induction bytes with
  | nil => rfl
  | cons byte rest inductionHypothesis =>
      have byteLt := byte.toNat_lt
      have high := hexValue?_digitChar (by omega : byte.toNat / 16 < 16)
      have low := hexValue?_digitChar (by omega : byte.toNat % 16 < 16)
      have whole : byte.toNat / 16 * 16 + byte.toNat % 16 = byte.toNat := by omega
      show ofHexadecimal? (Nat.digitChar (byte.toNat / 16) :: Nat.digitChar (byte.toNat % 16)
        :: hexadecimal rest) = some (byte :: rest)
      simp only [ofHexadecimal?, high, low, inductionHypothesis, whole, Option.bind_eq_bind,
        Option.bind_some, UInt8.ofNat_toNat]

theorem hexadecimal_inj {bytes others : Bytes} (same : hexadecimal bytes = hexadecimal others) :
    bytes = others := by
  have readBack := ofHexadecimal?_hexadecimal bytes
  rw [same, ofHexadecimal?_hexadecimal] at readBack
  exact (Option.some.inj readBack).symm

/-! ### Base64 -/

/-- Different groups of six bits have different digits, and none of these is the padding. -/
private theorem base64Digit_cases :
    (∀ first < 64, ∀ second < 64, base64Digit first = base64Digit second → first = second)
      ∧ ∀ group < 64, base64Digit group ≠ '=' := by
  decide +kernel

section Digits

variable {first second : Nat}

private theorem base64Digit_inj (firstLt : first < 64) (secondLt : second < 64)
    (same : base64Digit first = base64Digit second) : first = second :=
  base64Digit_cases.1 first firstLt second secondLt same

private theorem base64Digit_ne_padding (firstLt : first < 64) : base64Digit first ≠ '=' :=
  base64Digit_cases.2 first firstLt

end Digits

/-- A last group of one byte is padded where a longer one has a digit. -/
private theorem base64_singleton_ne (a x y : UInt8) (rest : Bytes) :
    base64 [a] ≠ base64 (x :: y :: rest) := by
  intro same
  have xLt := x.toNat_lt
  have yLt := y.toNat_lt
  cases rest with
  | nil =>
      simp only [base64, List.cons.injEq] at same
      exact base64Digit_ne_padding (by omega) same.2.2.1.symm
  | cons z others =>
      simp only [base64, List.cons.injEq] at same
      exact base64Digit_ne_padding (by omega) same.2.2.1.symm

/-- A last group of two bytes is padded where a longer one has a digit. -/
private theorem base64_pair_ne (a b x y z : UInt8) (rest : Bytes) :
    base64 [a, b] ≠ base64 (x :: y :: z :: rest) := by
  intro same
  simp only [base64, List.cons.injEq] at same
  exact base64Digit_ne_padding (by omega) same.2.2.2.1.symm

/-- Base64 is read in one way only. -/
theorem base64_inj : ∀ {bytes others : Bytes}, base64 bytes = base64 others → bytes = others
  | [], [], _ => rfl
  | [], [_], same => by simp [base64] at same
  | [], [_, _], same => by simp [base64] at same
  | [], _ :: _ :: _ :: _, same => by simp [base64] at same
  | [_], [], same => by simp [base64] at same
  | [_, _], [], same => by simp [base64] at same
  | _ :: _ :: _ :: _, [], same => by simp [base64] at same
  | [_], _ :: _ :: _, same => absurd same (base64_singleton_ne _ _ _ _)
  | _ :: _ :: _, [_], same => absurd same.symm (base64_singleton_ne _ _ _ _)
  | [_, _], _ :: _ :: _ :: _, same => absurd same (base64_pair_ne _ _ _ _ _ _)
  | _ :: _ :: _ :: _, [_, _], same => absurd same.symm (base64_pair_ne _ _ _ _ _ _)
  | [a], [x], same => by
      have aLt := a.toNat_lt
      have xLt := x.toNat_lt
      simp only [base64, List.cons.injEq, and_true] at same
      have high := base64Digit_inj (by omega) (by omega) same.1
      have low := base64Digit_inj (by omega) (by omega) same.2
      rw [UInt8.toNat_inj.1 (by omega : a.toNat = x.toNat)]
  | [a, b], [x, y], same => by
      have aLt := a.toNat_lt
      have bLt := b.toNat_lt
      have xLt := x.toNat_lt
      have yLt := y.toNat_lt
      simp only [base64, List.cons.injEq, and_true] at same
      have high := base64Digit_inj (by omega) (by omega) same.1
      have middle := base64Digit_inj (by omega) (by omega) same.2.1
      have low := base64Digit_inj (by omega) (by omega) same.2.2
      rw [UInt8.toNat_inj.1 (by omega : a.toNat = x.toNat),
        UInt8.toNat_inj.1 (by omega : b.toNat = y.toNat)]
  | a :: b :: c :: rest, x :: y :: z :: others, same => by
      have aLt := a.toNat_lt
      have bLt := b.toNat_lt
      have cLt := c.toNat_lt
      have xLt := x.toNat_lt
      have yLt := y.toNat_lt
      have zLt := z.toNat_lt
      simp only [base64, List.cons.injEq] at same
      have first := base64Digit_inj (by omega) (by omega) same.1
      have second := base64Digit_inj (by omega) (by omega) same.2.1
      have third := base64Digit_inj (by omega) (by omega) same.2.2.1
      have fourth := base64Digit_inj (by omega) (by omega) same.2.2.2.1
      rw [UInt8.toNat_inj.1 (by omega : a.toNat = x.toNat),
        UInt8.toNat_inj.1 (by omega : b.toNat = y.toNat),
        UInt8.toNat_inj.1 (by omega : c.toNat = z.toNat), base64_inj same.2.2.2.2]

/-! ### Digests -/

/-- Contents with the same digest have the same hash. -/
theorem sha1_eq_of_contentDigest_eq {content other : Bytes}
    (same : contentDigest content = contentDigest other) : sha1 content = sha1 other := by
  have texts := congrArg String.toList same
  rw [contentDigest, contentDigest, String.toList_append, String.toList_append,
    List.append_cancel_left_eq, String.toList_ofList, String.toList_ofList] at texts
  exact base64_inj texts

/-- No two of some contents share a hash. -/
def CollisionFree (contents : List Bytes) : Prop :=
  ∀ content ∈ contents, ∀ other ∈ contents, sha1 content = sha1 other → content = other

theorem CollisionFree.mono {fewer more : List Bytes} (collisionFree : CollisionFree more)
    (subset : fewer ⊆ more) : CollisionFree fewer :=
  fun content member other otherMember => collisionFree content (subset member) other (subset otherMember)

end DocumentStore.Digest
