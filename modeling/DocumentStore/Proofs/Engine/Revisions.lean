import DocumentStore.Engine.Revision
import DocumentStore.Proofs.Digest.Encoding
import DocumentStore.Proofs.Json.Ascii
import DocumentStore.Proofs.Json.KeyOrder

/-!
Contract: a revision identifier stands for its generation and for its data up to the order of
keys.

Owns: the generation and the hash behind an identifier, the data behind the bytes that are
hashed, and the identifiers of values that are JSON data.

Does not own: the counting of generations, and the hash itself.
-/

set_option autoImplicit false

namespace DocumentStore

/-! ### The parts of an identifier -/

/-- What stands in front of the hyphen of a revision identifier is the generation. -/
theorem takeWhile_revisionIdentifier (generation : Nat) (data : Json) :
    (revisionIdentifier generation data).toList.takeWhile (· ≠ '-') = Nat.toDigits 10 generation := by
  have digits : ∀ character ∈ Nat.toDigits 10 generation, (decide (character ≠ '-')) = true := by
    intro character member
    have digit := Nat.isDigit_of_mem_toDigits (by decide) (by decide) member
    refine decide_eq_true ?_
    rintro rfl
    revert digit
    decide
  have notNegative : ¬((generation : Int) < 0) := by omega
  simp only [revisionIdentifier, integerText, if_neg notNegative, Int.natAbs_natCast,
    String.toList_ofList]
  rw [List.takeWhile_append_of_pos digits]
  simp

/-- Identifiers are the same if and only if the generations and the hashes of the data are. -/
theorem revisionIdentifier_eq_iff {generation otherGeneration : Nat} {data other : Json} :
    revisionIdentifier generation data = revisionIdentifier otherGeneration other ↔
      generation = otherGeneration
        ∧ Digest.sha1 (canonicalBytes data) = Digest.sha1 (canonicalBytes other) := by
  constructor
  · intro same
    have front := congrArg (fun text => digitsValue (text.toList.takeWhile (· ≠ '-'))) same
    simp only [takeWhile_revisionIdentifier, digitsValue_toDigits] at front
    subst front
    have back := String.ofList_injective same
    exact ⟨rfl, Digest.hexadecimal_inj (List.cons.inj (List.append_cancel_left back)).2⟩
  · rintro ⟨rfl, hashes⟩
    rw [revisionIdentifier, revisionIdentifier, hashes]

/-! ### The bytes of some data -/

/-- Plain ASCII is read back from its bytes. -/
theorem map_ofNat_bytes {characters : List Char} (ascii : Json.Ascii characters) :
    ((characters.map fun character => UInt8.ofNat character.toNat).map fun byte =>
      Char.ofNat byte.toNat) = characters := by
  rw [List.map_map]
  refine (List.map_congr_left fun character member => ?_).trans (List.map_id characters)
  have small := ascii character member
  have bound : character.toNat < 2 ^ 8 := by omega
  simp only [Function.comp_apply, UInt8.toNat_ofNat_of_lt' bound, Char.ofNat_toNat, id]

theorem canonicalBytes_eq_iff_render_eq {data other : Json} :
    canonicalBytes data = canonicalBytes other ↔ data.sorted.render = other.sorted.render := by
  refine ⟨fun same => ?_, fun same => by rw [canonicalBytes, canonicalBytes, same]⟩
  have readBack := map_ofNat_bytes (Json.ascii_render data.sorted)
  have otherReadBack := map_ofNat_bytes (Json.ascii_render other.sorted)
  rw [← readBack, ← otherReadBack]
  exact congrArg (List.map fun byte : UInt8 => Char.ofNat byte.toNat) same

/-- The bytes that are hashed stand for the data up to the order of keys. -/
theorem canonicalBytes_eq_iff {data other : Json} (readable : data.Readable)
    (wellKeyed : data.WellKeyed) (otherReadable : other.Readable)
    (otherWellKeyed : other.WellKeyed) :
    canonicalBytes data = canonicalBytes other ↔ data.Rearranges other := by
  rw [canonicalBytes_eq_iff_render_eq,
    Json.rearranges_iff_render_sorted_eq readable wellKeyed otherReadable otherWellKeyed]

/-! ### Values -/

namespace Tree

theorem fieldsToTree_eq_map (fields : List (String × Json)) :
    Json.fieldsToTree fields = fields.map fun field => (field.1, field.2.toTree) := by
  induction fields with
  | nil => rfl
  | cons field rest inductionHypothesis =>
      obtain ⟨key, value⟩ := field
      rw [Json.fieldsToTree, inductionHypothesis]
      rfl

mutual

/-- A JSON tree that was made a value is put in order as the tree is. -/
theorem inKeyOrder_toTree (json : Json) : json.toTree.inKeyOrder = json.sorted.toTree := by
  cases json with
  | array items => exact congrArg Tree.array (itemsInKeyOrder_itemsToTree items)
  | object fields =>
      have inside := fieldsInKeyOrder_fieldsToTree fields
      simp only [Json.toTree, inKeyOrder, Json.sorted, inside]
      rw [fieldsToTree_eq_map, fieldsToTree_eq_map, Table.inKeyOrder_map]
  | _ => rfl

theorem itemsInKeyOrder_itemsToTree (items : List Json) :
    itemsInKeyOrder (Json.itemsToTree items) = Json.itemsToTree (Json.sortedItems items) := by
  cases items with
  | nil => rfl
  | cons item rest =>
      simp only [Json.itemsToTree, itemsInKeyOrder, Json.sortedItems, inKeyOrder_toTree item,
        itemsInKeyOrder_itemsToTree rest]

theorem fieldsInKeyOrder_fieldsToTree (fields : List (String × Json)) :
    fieldsInKeyOrder (Json.fieldsToTree fields) = Json.fieldsToTree (Json.sortedFields fields) := by
  cases fields with
  | nil => rfl
  | cons field rest =>
      obtain ⟨key, value⟩ := field
      simp only [Json.fieldsToTree, fieldsInKeyOrder, Json.sortedFields, inKeyOrder_toTree value,
        fieldsInKeyOrder_fieldsToTree rest]

end

/-- JSON data has an identifier under every generation that can be written. -/
theorem revisionIdentifier_toTree (generation : Int) {data : Json} (readable : data.Readable) :
    data.toTree.revisionIdentifier generation =
      if digitLimit < digitCount generation then .error .integerTooLong
      else .ok (DocumentStore.revisionIdentifier generation data) := by
  have converted := toJson_of_readable false data.sorted (Json.readable_sorted data readable)
  have bytes : canonicalBytes data.sorted = canonicalBytes data := by
    rw [canonicalBytes, canonicalBytes, Json.sorted_sorted]
  rw [revisionIdentifier, inKeyOrder_toTree, converted]
  simp only [bind, Except.bind, DocumentStore.revisionIdentifier, bytes]

/-- Revision identifiers are canonical. Under one generation, data that is equal up to the order
of keys has one identifier. Under two generations, or for data that differs in more than this
order, any two identifiers differ, unless the bytes of the two are different ones with the same
hash. There is an identifier whenever the generation has no more digits than an integer may
have. -/
theorem revisions_are_canonical {generation otherGeneration : Int} {data other : Json}
    (counted : 1 ≤ generation) (otherCounted : 1 ≤ otherGeneration) (readable : data.Readable)
    (wellKeyed : data.WellKeyed) (otherReadable : other.Readable)
    (otherWellKeyed : other.WellKeyed) :
    (generation = otherGeneration → data.Rearranges other →
        data.toTree.revisionIdentifier generation =
          other.toTree.revisionIdentifier otherGeneration)
      ∧ (generation ≠ otherGeneration ∨ ¬data.Rearranges other →
          ∀ identifier otherIdentifier,
            data.toTree.revisionIdentifier generation = .ok identifier →
            other.toTree.revisionIdentifier otherGeneration = .ok otherIdentifier →
            identifier ≠ otherIdentifier
              ∨ (canonicalBytes data ≠ canonicalBytes other
                ∧ Digest.sha1 (canonicalBytes data) = Digest.sha1 (canonicalBytes other)))
      ∧ (digitCount generation ≤ digitLimit →
          data.toTree.revisionIdentifier generation =
            .ok (DocumentStore.revisionIdentifier generation data)) := by
  obtain ⟨generation, rfl⟩ := Int.eq_ofNat_of_zero_le (by omega : 0 ≤ generation)
  obtain ⟨otherGeneration, rfl⟩ := Int.eq_ofNat_of_zero_le (by omega : 0 ≤ otherGeneration)
  have sameBytes := canonicalBytes_eq_iff readable wellKeyed otherReadable otherWellKeyed
  rw [revisionIdentifier_toTree _ readable, revisionIdentifier_toTree _ otherReadable]
  refine ⟨fun same alike => ?_, fun different identifier otherIdentifier made otherMade => ?_,
    fun short => if_neg (Nat.not_lt.2 short)⟩
  · rw [same, DocumentStore.revisionIdentifier, DocumentStore.revisionIdentifier,
      sameBytes.2 alike]
  · split at made
    · cases made
    split at otherMade
    · cases otherMade
    cases made
    cases otherMade
    rw [← imp_iff_not_or]
    intro same
    obtain ⟨generations, hashes⟩ := revisionIdentifier_eq_iff.1 same
    refine ⟨fun bytes => ?_, hashes⟩
    rcases different with apart | notAlike
    · exact apart (congrArg Int.ofNat generations)
    · exact notAlike (sameBytes.1 bytes)

/-- A trip, its keys in the order of their arrival. -/
def trip (balance : Json) : Json :=
  .object [("stops", .array [.object [("name", .text "Oslo"), ("far", .boolean true)]]),
    ("balance", balance)]

/-- The trip with its keys in another order, at both depths. -/
def rearrangedTrip (balance : Json) : Json :=
  .object [("balance", balance),
    ("stops", .array [.object [("far", .boolean true), ("name", .text "Oslo")]])]

section Trips

variable {balance other : Json}

theorem rearranges_rearrangedTrip (alike : balance.Rearranges balance) :
    (trip balance).Rearranges (rearrangedTrip balance) :=
  .swap (by decide) (.array (.cons (.swap (by decide) (.text "Oslo") (.boolean true)) .nil)) alike

theorem rearranges_of_trip (rearranges : (trip balance).Rearranges (trip other)) :
    balance.Rearranges other := by
  cases rearranges with
  | object each =>
      cases each "balance" with
      | some alike => exact alike

theorem readable_trip (readable : balance.Readable) : (trip balance).Readable :=
  ⟨⟨⟨trivial, trivial, trivial⟩, trivial⟩, readable, trivial⟩

theorem readable_rearrangedTrip (readable : balance.Readable) : (rearrangedTrip balance).Readable :=
  ⟨readable, ⟨⟨trivial, trivial, trivial⟩, trivial⟩, trivial⟩

theorem wellKeyed_trip (wellKeyed : balance.WellKeyed) : (trip balance).WellKeyed := by
  refine ⟨?_, ⟨⟨?_, trivial, trivial, trivial⟩, trivial⟩, wellKeyed, trivial⟩ <;>
    simp [Table.Distinct]

theorem wellKeyed_rearrangedTrip (wellKeyed : balance.WellKeyed) :
    (rearrangedTrip balance).WellKeyed := by
  refine ⟨?_, wellKeyed, ⟨⟨?_, trivial, trivial, trivial⟩, trivial⟩, trivial⟩ <;>
    simp [Table.Distinct]

end Trips

/-- A trip keeps its identifier when its keys arrive in another order, and gets another one in the
next generation. It also gets another one for any other zero, unless the hashes collide. -/
theorem rearranged_trip_keeps_its_identifier :
    (trip (.double (.zero false))).toTree.revisionIdentifier 1 =
        (rearrangedTrip (.double (.zero false))).toTree.revisionIdentifier 1
      ∧ (∃ identifier next,
          (trip (.double (.zero false))).toTree.revisionIdentifier 1 = .ok identifier
            ∧ (trip (.double (.zero false))).toTree.revisionIdentifier 2 = .ok next
            ∧ identifier ≠ next)
      ∧ ∀ zero ∈ [Json.double (.zero true), .integer 0, .boolean false],
          ∃ identifier other,
            (trip (.double (.zero false))).toTree.revisionIdentifier 1 = .ok identifier
              ∧ (trip zero).toTree.revisionIdentifier 1 = .ok other
              ∧ (identifier ≠ other
                ∨ Digest.sha1 (canonicalBytes (trip (.double (.zero false)))) =
                    Digest.sha1 (canonicalBytes (trip zero))) := by
  have first : (1 : Int) ≤ 1 := by decide
  have second : (1 : Int) ≤ 2 := by decide
  have readable : (trip (.double (.zero false))).Readable := readable_trip trivial
  have wellKeyed : (trip (.double (.zero false))).WellKeyed := wellKeyed_trip trivial
  have rearrangedReadable : (rearrangedTrip (.double (.zero false))).Readable :=
    readable_rearrangedTrip trivial
  have rearrangedWellKeyed : (rearrangedTrip (.double (.zero false))).WellKeyed :=
    wellKeyed_rearrangedTrip trivial
  have made := (revisions_are_canonical first first readable wellKeyed readable wellKeyed).2.2
    (by decide)
  refine ⟨?_, ?_, fun zero member => ?_⟩
  · exact (revisions_are_canonical first first readable wellKeyed rearrangedReadable
      rearrangedWellKeyed).1 rfl (rearranges_rearrangedTrip (.double _))
  · have nextMade :=
      (revisions_are_canonical second second readable wellKeyed readable wellKeyed).2.2 (by decide)
    have differ := (revisions_are_canonical first second readable wellKeyed readable
      wellKeyed).2.1 (.inl (by decide)) _ _ made nextMade
    exact ⟨_, _, made, nextMade, differ.resolve_right fun collision => collision.1 rfl⟩
  · have short : digitCount 0 ≤ digitLimit := by decide
    have zeroReadable : zero.Readable := by
      simp only [List.mem_cons, List.not_mem_nil, or_false] at member
      rcases member with rfl | rfl | rfl
      exacts [trivial, short, trivial]
    have zeroWellKeyed : zero.WellKeyed := by
      simp only [List.mem_cons, List.not_mem_nil, or_false] at member
      rcases member with rfl | rfl | rfl <;> exact trivial
    have apart : ¬(trip (.double (.zero false))).Rearranges (trip zero) := by
      intro same
      cases rearranges_of_trip same
      simp [Double.zero] at member
    have zeroMade := (revisions_are_canonical first first (readable_trip zeroReadable)
      (wellKeyed_trip zeroWellKeyed) readable wellKeyed).2.2 (by decide)
    have differ := (revisions_are_canonical first first readable wellKeyed
      (readable_trip zeroReadable) (wellKeyed_trip zeroWellKeyed)).2.1 (.inr apart) _ _ made zeroMade
    exact ⟨_, _, made, zeroMade, differ.imp_right And.right⟩

end Tree

end DocumentStore
