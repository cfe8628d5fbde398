import DocumentStore.Proofs.Heap.Forms
import DocumentStore.Proofs.Engine.Blobs

/-!
Contract: every way to put a blob into a document puts the same form there.

Owns: what the setters of a document leave in its bag for a blob, the blob that is read from a form,
and that a document with forms in the place of blobs is written and saved as it would be with the
blobs themselves.

Does not own: what the engine makes of the written form.

A bag that is given to a document is written to while its properties are gone through. The keys
already passed hold forms, the other ones are as they were, and no key comes twice.
-/

set_option autoImplicit false

namespace DocumentStore

/-! ### Reading a form -/

/-- The blob that is read from the form of a blob. -/
def Blob.reread (blob : Blob) : Blob :=
  match blob.content with
  | some content => ofContent blob.contentType (some content)
  | none => if blob.digest = .null then ofContent blob.contentType (some []) else blob

namespace Store

variable {store : Store} {value : Value} {blob : Blob}

theorem HoldsFields.fieldwise {fields : List (String × Draft)} {values : List (String × Value)}
    (holds : store.HoldsFields fields values) : Table.Fieldwise store.Holds fields values := by
  induction fields generalizing values with
  | nil =>
      cases values with
      | nil => exact .nil
      | cons => exact holds.elim
  | cons field rest inductionHypothesis =>
      obtain ⟨key, field⟩ := field
      cases values with
      | nil => exact holds.elim
      | cons present remaining =>
          obtain ⟨present, value⟩ := present
          obtain ⟨rfl, first, others⟩ := holds
          exact .cons first (inductionHypothesis others)

/-- In the shape of an object, a value has the fields of the draft and no others. -/
theorem Holds.object {fields : List (String × Draft)} (holds : store.Holds (.object fields) value) :
    ∃ values, store.object? value = some values
      ∧ (∀ key field, Table.value? fields key = some field →
          ∃ inner, store.Holds field inner ∧ Table.value? values key = some inner)
      ∧ ∀ key, Table.value? fields key = none → Table.value? values key = none := by
  obtain ⟨ref, values, rfl, read, each⟩ := holds
  refine ⟨values, by simp only [object?, read], fun key field found => ?_, fun key absent => ?_⟩
  · obtain ⟨inner, foundInner, holds⟩ := each.fieldwise.value?_eq_some found
    exact ⟨inner, holds, foundInner⟩
  · exact each.fieldwise.value?_eq_none absent

variable [Machine]

theorem Holds.payload_byteNumbers {content : Digest.Bytes}
    (holds : store.Holds (.byteNumbers content) value) :
    Tree.payload (some (store.unfold value)) = .ok content := by
  have founded : ∀ leaf ∈ (Draft.byteNumbers content).leaves, store.Founded leaf := by
    intro leaf member
    refine .scalar fun ref same => ?_
    exact Draft.within_leaves_byteNumbers (fun _ => False) content leaf member ref same
  rw [(holds.unfoldsTo founded (.refl store)).unfolds, Draft.byteNumbers, Draft.treeIn,
    Blob.itemTreesIn_byteNumbers]
  exact Tree.payload_byteNumbers content

/-- The dictionary of a blob is read as a blob of the same type and content. -/
theorem blobOfDictionary_of_holds (holds : store.Holds blob.dictionary value) :
    ∃ fields, store.object? value = some fields
      ∧ store.blobOfDictionary fields =
        .ok (.ofContent blob.contentType (some (blob.content.getD []))) := by
  obtain ⟨fields, object, present, _⟩ := holds.object
  obtain ⟨_, rfl, type⟩ := present "contentType" _ rfl
  obtain ⟨numbers, holdsNumbers, foundNumbers⟩ := present "data" _ rfl
  refine ⟨fields, object, ?_⟩
  simp only [blobOfDictionary, type, foundNumbers, Option.map_some, holdsNumbers.payload_byteNumbers]

/-- The form of a blob is an object, from which the blob is read again. -/
theorem asBlob_of_holds (holds : store.Holds blob.property value) :
    store.blob? value = none ∧ store.asBlob value = .ok (some blob.reread) := by
  unfold Blob.property at holds
  split at holds
  · next described =>
      obtain ⟨absent, given⟩ := described
      obtain ⟨values, object, present, _⟩ := holds.object
      obtain ⟨_, rfl, type⟩ := present "content_type" _ rfl
      obtain ⟨_, rfl, digest⟩ := present "digest" _ rfl
      obtain ⟨_, rfl, length⟩ := present "length" _ rfl
      have itself : blob.reread = .ofMetadata blob.contentType blob.length blob.digest := by
        obtain ⟨contentType, content, length, digest⟩ := blob
        subst absent
        exact if_neg given
      refine ⟨blob?_eq_none_of_object? object, ?_⟩
      rw [asBlob, blob?_eq_none_of_object? object, object, itself]
      simp only [blobOfFields, type, digest, length, Option.getD_some]
  · next tagged =>
      obtain ⟨values, object, present, absent⟩ := holds.object
      obtain ⟨_, rfl, mark⟩ := present "_type" _ rfl
      obtain ⟨data, holdsData, foundData⟩ := present "data" _ rfl
      obtain ⟨parts, dataObject, reading⟩ := blobOfDictionary_of_holds holdsData
      have whole : blob.reread = .ofContent blob.contentType (some (blob.content.getD [])) := by
        obtain ⟨contentType, content, length, digest⟩ := blob
        cases content with
        | some content => rfl
        | none =>
            have unnamed : digest = .null := by
              apply Classical.byContradiction
              exact fun given => tagged ⟨rfl, given⟩
            exact if_pos unnamed
      refine ⟨blob?_eq_none_of_object? object, ?_⟩
      rw [asBlob, blob?_eq_none_of_object? object, object, whole]
      simp only [blobOfFields, absent "content_type" rfl, taggedBlob?, mark, foundData, dataObject,
        reading]

/-- A reference to the blob that is read from a form. -/
theorem referToBlob_of_holds (holds : store.Holds blob.property value) :
    ∃ reference after, store.referToBlob value = .ok (reference, after)
      ∧ after.blob? reference = some blob.reread :=
  referToBlob_eq_ok (asBlob_of_holds holds).1 (asBlob_of_holds holds).2

end Store

/-! ### Setting a blob -/

namespace Store

variable {store : Store} {bag : Ref}

/-- A form that was placed and set as a property stays as it is while nothing but the bag of the
property changes. -/
theorem holds_writeBlob {later : Store} {key : String} {blob : Blob} (present : bag < store.size)
    (spares : ((store.place blob.property).2.setField bag key (store.place blob.property).1).Spares
      later (· = bag)) :
    later.Holds blob.property (store.place blob.property).1 := by
  refine holds_place blob.property blob.isCopy_property fun ref cell new read => ?_
  have apart : ref ≠ bag := Nat.ne_of_gt (Nat.lt_of_lt_of_le present new)
  have within := lt_size_of_read? read
  rw [spares.others ref apart (by rwa [setField, size_write]), setField,
    read?_write_of_ne _ _ apart.symm, read]

theorem read?_writeBlob {done rest : Table String Value} {key : String} {value : Value}
    (read : store.read? bag = some (.object (done ++ (key, value) :: rest)))
    (absent : key ∉ Table.keys done) (blob : Blob) :
    ((store.place blob.property).2.setField bag key (store.place blob.property).1).read? bag =
      some (.object (done ++ (key, (store.place blob.property).1) :: rest)) := by
  have readPlaced := extends_place store blob.property _ _ read
  rw [setField, read?_write_self _ _ (lt_size_of_read? readPlaced), fields, readPlaced]
  simp only [Table.put_append_of_not_mem absent, Table.put, if_true]

theorem Spares.blob?_eq {after : Store} {fields others : Table String Value} {value : Value}
    (spares : store.Spares after (· = bag)) (read : store.read? bag = some (.object fields))
    (readAfter : after.read? bag = some (.object others)) (kept : value.Within (· < store.size)) :
    after.blob? value = store.blob? value := by
  cases value with
  | cell ref =>
      by_cases same : ref = bag
      · rw [same, blob?, blob?, read, readAfter]
      · rw [blob?, blob?, spares.others ref same (kept ref rfl)]
  | _ => rfl

end Store

namespace Document

variable {store : Store} {document : Document} {bag : Ref}

theorem property_setField {store : Store} (present : document.bag < store.size) (key : String)
    (value : Value) : document.property (store.setField document.bag key value) key = value := by
  rw [property, properties, Store.fields_setField_self store key value present,
    Table.value?_put_self]
  rfl

/-- A blob that is set is held as its form. -/
theorem holds_setBlob (present : document.bag < store.size) (key : String) (blob : Blob) :
    (document.setBlob store key blob).Holds blob.property
      (document.property (document.setBlob store key blob) key) := by
  have grown := (Store.extends_place store blob.property).size_le
  have written := property_setField (Nat.lt_of_lt_of_le present grown) key
    (store.place blob.property).1
  show Store.Holds _ _ (document.property (Store.setField _ _ _ _) key)
  rw [written]
  exact Store.holds_writeBlob present (.refl _)

/-! ### Giving a bag -/

/-- What a value of a bag becomes when the bag is given to a document. -/
def Becomes (store after : Store) (value other : Value) : Prop :=
  match store.blob? value with
  | some blob => after.Holds blob.property other
  | none => other = value

/-- The properties that are gone through become what they become, and those passed before stay. Since
the first property was passed, nothing but the bag has changed. -/
theorem read?_writeBlobs {base store : Store} {given done fields : Table String Value}
    (readBase : base.read? bag = some (.object given)) (spares : base.Spares store (· = bag))
    (read : store.read? bag = some (.object (done ++ fields)))
    (distinct : Table.Distinct (done ++ fields))
    (kept : ∀ value ∈ fields.map Prod.snd, value.Within (· < base.size)) :
    ∃ written, (writeBlobs store bag fields).read? bag = some (.object (done ++ written))
      ∧ Table.Fieldwise (Becomes base (writeBlobs store bag fields)) fields written := by
  induction fields generalizing store done with
  | nil => exact ⟨[], read, .nil⟩
  | cons field rest inductionHypothesis =>
      obtain ⟨key, value⟩ := field
      rw [List.map_cons, List.forall_mem_cons] at kept
      have unchanged := spares.blob?_eq readBase read kept.1
      rw [writeBlobs]
      cases held : store.blob? value with
      | none =>
          rw [List.append_cons] at read distinct
          obtain ⟨written, readWritten, each⟩ := inductionHypothesis spares read distinct kept.2
          rw [← List.append_cons] at readWritten
          refine ⟨(key, value) :: written, readWritten, .cons ?_ each⟩
          rw [Becomes, ← unchanged, held]
      | some blob =>
          have absent : key ∉ Table.keys done := by
            intro member
            rw [Table.Distinct, Table.keys, List.map_append] at distinct
            exact (List.nodup_append.1 distinct).2.2 key member key (List.mem_cons_self ..) rfl
          have readSet := Store.read?_writeBlob read absent blob
          rw [List.append_cons] at readSet
          obtain ⟨written, readWritten, each⟩ := inductionHypothesis
            (spares.trans (.writeBlob store bag key blob)) readSet
            (by simpa [Table.Distinct, Table.keys] using distinct) kept.2
          rw [← List.append_cons] at readWritten
          refine ⟨(key, (store.place blob.property).1) :: written, readWritten, .cons ?_ each⟩
          rw [Becomes, ← unchanged, held]
          exact Store.holds_writeBlob (Store.lt_size_of_read? read) (.writeBlobs _ bag rest)

section Giving

variable {fields : Table String Value} (read : store.read? bag = some (.object fields))
  (distinct : Table.Distinct fields) (intact : store.Intact (.cell bag))

include read distinct intact

theorem read?_setBag :
    ∃ written, (document.setBag store bag).2.read? bag = some (.object written)
      ∧ Table.Fieldwise (Becomes store (document.setBag store bag).2) fields written := by
  have kept : ∀ value ∈ fields.map Prod.snd, value.Within (· < store.size) := by
    rintro value member ref rfl
    exact intact ref (.inside (.self store _) read member)
  have written := @read?_writeBlobs bag store store fields [] fields read (.refl store) read distinct kept
  have gone : (document.setBag store bag).2 = writeBlobs store bag fields := by
    rw [setBag, Store.fields, read]
  rwa [gone]

/-- A blob in a bag that is given is held as its form. -/
theorem holds_setBag {key : String} {value : Value} {blob : Blob}
    (found : Table.value? fields key = some value) (held : store.blob? value = some blob) :
    (document.setBag store bag).2.Holds blob.property
      ((document.setBag store bag).1.property (document.setBag store bag).2 key) := by
  obtain ⟨written, readWritten, each⟩ := @read?_setBag store document bag fields read distinct intact
  obtain ⟨other, foundOther, becomes⟩ := each.value?_eq_some found
  rw [Becomes, held] at becomes
  show Store.Holds _ _ ((Table.value? (Store.fields _ bag) key).getD .null)
  rw [Store.fields, readWritten, foundOther]
  exact becomes

/-- A bag that is given to a document has forms in the place of its own blobs. -/
theorem replacesBlobs_setBag : store.ReplacesBlobs (document.setBag store bag).2 := by
  obtain ⟨written, readWritten, each⟩ := @read?_setBag store document bag fields read distinct intact
  have spares := Store.Spares.writeBlobs store bag (store.fields bag)
  intro ref cell readCell
  by_cases same : ref = bag
  · subst same
    cases read.symm.trans readCell
    refine ⟨.object written, readWritten, .object each.keys_eq.symm, fun pair listed => ?_⟩
    have becomes := each.related_of_mem_zip pair listed
    rw [Becomes] at becomes
    split at becomes
    · next blob held => exact .inr ⟨blob, held, becomes⟩
    · exact .inl becomes
  · have readAfter := spares.others ref same (Store.lt_size_of_read? readCell)
    exact ⟨cell, readAfter.trans readCell, .refl cell, fun pair listed =>
      .inl (Store.eq_of_mem_zip_self listed)⟩

end Giving

/-! ### Forms in the place of blobs -/

variable [Machine]

/-- Two documents are written as the same text, and saves of their bags have the same outcome and
leave the same state behind; where one fails, so does the other, for the same reason. -/
structure SavedAlike (store : Store) (document : Document) (after : Store) (other : Document) : Prop where
  written : document.writeJson store = other.writeJson after
  saved : ∀ (memory : Memory) (collection : Address) (identifier : String)
    (control : Option ConcurrencyControl) (sequence : Int),
    DocumentEngine.perform store (.save collection identifier (.cell document.bag) control sequence)
        memory =
      DocumentEngine.perform after (.save collection identifier (.cell other.bag) control sequence)
        memory

/-- Documents whose bags become the same JSON tree are alike. -/
theorem savedAlike_of_toJson_eq {after : Store} {other : Document}
    (same : (store.unfold (.cell document.bag)).toJson true =
      (after.unfold (.cell other.bag)).toJson true) : document.SavedAlike store after other where
  written := by rw [writeJson, writeJson, Tree.writeJson, Tree.writeJson, same]
  saved := by
    intro memory collection identifier control sequence
    have copied : (store.unfold (.cell document.bag)).throughText true =
        (after.unfold (.cell other.bag)).throughText true := by
      rw [Tree.throughText_eq, Tree.throughText_eq, same]
    have saving : memory.save collection identifier (store.unfold (.cell document.bag)) control
        sequence =
          memory.save collection identifier (after.unfold (.cell other.bag)) control sequence := by
      rw [Memory.save, Memory.save, copied]
    show memory.step (.save _ _ _ _ _) = memory.step (.save _ _ _ _ _)
    rw [Memory.step, Memory.step, saving]

theorem SavedAlike.of_replacesBlobs {after : Store} (intact : store.Intact (.cell document.bag))
    (noCircle : ¬store.Circular (.cell document.bag)) (replaces : store.ReplacesBlobs after)
    {other : Document} (sameBag : other.bag = document.bag) : document.SavedAlike store after other := by
  have founded := Store.founded_iff.2 ⟨intact, noCircle⟩
  refine savedAlike_of_toJson_eq ?_
  rw [sameBag]
  exact (founded.rewritten replaces).alike.2.2

/-- What a blob is read back as from its form: one with content as it is made of its type and its
content, one with a digest alone as it is, and one with neither as an empty one of its type. -/
structure RereadAs (blob loaded : Blob) : Prop where
  filled : ∀ content, blob.content = some content →
    loaded = .ofContent blob.contentType (some content)
  made : ∀ type content, blob = .ofContent type (some content) → loaded = blob
  described : blob.content = none → blob.digest ≠ .null → loaded = blob
  empty : blob.content = none → blob.digest = .null →
    loaded = .ofContent blob.contentType (some [])

/-- A blob is held as the same form whether it is set by itself, as a value or in a bag. The form
tells all of it that is written, and the blob is read back from it. Forms in the place of any
blobs in a bag without circles, at any depth, change nothing of what is written and saved. -/
structure SettersAgree (store : Store) (document : Document) (key : String) (value : Value)
    (blob : Blob) : Prop where
  ofBlob : (document.setBlob store key blob).Holds blob.property
    (document.property (document.setBlob store key blob) key)
  ofValue : document.setValue store key value = document.setBlob store key blob
  reread : ∃ reference after loaded,
    (document.setBlob store key blob).referToBlob
        (document.property (document.setBlob store key blob) key) = .ok (reference, after)
      ∧ after.blob? reference = some loaded ∧ RereadAs blob loaded
  ofBag : ∀ (bag : Ref) (given : Table String Value), store.read? bag = some (.object given) →
    Table.Distinct given → store.Intact (.cell bag) →
      let after := document.setBag store bag
      (∀ name, Table.value? given name = some value →
          after.2.Holds blob.property (after.1.property after.2 name))
        ∧ (¬store.Circular (.cell bag) → SavedAlike store { document with bag } after.2 after.1)
  replaced : ∀ after, store.Intact (.cell document.bag) → ¬store.Circular (.cell document.bag) →
    store.ReplacesBlobs after → document.SavedAlike store after document
  rewritten : ∀ (after : Store) (bag : Ref), store.Rewritten after (.cell document.bag) (.cell bag) →
    document.SavedAlike store after { document with bag }

/-- All setters agree on a blob, whatever document it is set in. -/
theorem setters_agree_on_blobs {store : Store} {document : Document}
    {fields : Table String Value} {value : Value} {blob : Blob}
    (read : store.read? document.bag = some (.object fields))
    (held : store.blob? value = some blob) (key : String) :
    document.SettersAgree store key value blob := by
  have present := Store.lt_size_of_read? read
  have holds := holds_setBlob present key blob
  have asValue : document.setValue store key value = document.setBlob store key blob := by
    rw [setValue, held]
  obtain ⟨reference, loading, loaded, rereads⟩ := Store.referToBlob_of_holds holds
  refine ⟨holds, asValue, ⟨reference, loading, blob.reread, loaded, rereads, ?_⟩, ?_, ?_, ?_⟩
  · obtain ⟨contentType, content, length, digest⟩ := blob
    refine ⟨?_, ?_, ?_, ?_⟩
    · rintro bytes rfl
      rfl
    · intro type bytes same
      rw [same]
      rfl
    · rintro rfl given
      exact if_neg given
    · rintro rfl missing
      exact if_pos missing
  · intro bag given readBag distinct intact after
    refine ⟨fun name found => holds_setBag readBag distinct intact found held, fun noCircle => ?_⟩
    exact SavedAlike.of_replacesBlobs intact noCircle (replacesBlobs_setBag readBag distinct intact) rfl
  · intro after intact noCircle replaces
    exact .of_replacesBlobs intact noCircle replaces rfl
  · intro after bag rewritten
    exact savedAlike_of_toJson_eq rewritten.alike.2.2

end Document

namespace Store

/-- A bag with one blob twice, as the cover and in a list. -/
def albumStore : Store :=
  ⟨#[.blob (.ofContent (.text "image/png") (some [1, 2])), .array [.cell 0],
    .object [("cover", .cell 0), ("pages", .cell 1)]]⟩

/-- The same bag, with the form of the blob in the list. -/
def albumStoreWithForm : Store :=
  ⟨#[.blob (.ofContent (.text "image/png") (some [1, 2])), .array [.cell 5],
    .object [("cover", .cell 0), ("pages", .cell 1)], .array [.integer 1, .integer 2],
    .object [("contentType", .text "image/png"), ("data", .cell 3)],
    .object [("_type", .text "blob"), ("data", .cell 4)]]⟩

theorem founded_album : albumStore.Founded (.cell 2) := by
  have read : albumStore.read? 0 = some (.blob (.ofContent (.text "image/png") (some [1, 2]))) := rfl
  have blob : albumStore.Founded (.cell 0) :=
    .container read (by simp [Cell.values, Blob.ofContent, Founded.scalar])
  have pages : albumStore.Founded (.cell 1) := by
    have read : albumStore.read? 1 = some (.array [.cell 0]) := rfl
    exact .container read (by simp [Cell.values, blob])
  have read : albumStore.read? 2 = some (.object [("cover", .cell 0), ("pages", .cell 1)]) := rfl
  exact .container read (by simp [Cell.values, blob, pages])

theorem replacesBlobs_album : albumStore.ReplacesBlobs albumStoreWithForm := by
  have form : albumStoreWithForm.Holds
      (Blob.ofContent (.text "image/png") (some [1, 2])).property (.cell 5) := by
    refine ⟨5, _, rfl, rfl, rfl, rfl, rfl, ⟨4, _, rfl, rfl, rfl, rfl, rfl, ?_, trivial⟩, trivial⟩
    exact ⟨3, _, rfl, rfl, rfl, rfl, trivial⟩
  intro ref cell read
  have bound : ref < 3 := lt_size_of_read? read
  match ref, bound with
  | 0, _ | 2, _ =>
      exact ⟨cell, read, .refl cell, fun pair listed => .inl (eq_of_mem_zip_self listed)⟩
  | 1, _ =>
      obtain rfl : cell = .array [.cell 0] := (Option.some.inj read).symm
      refine ⟨.array [.cell 5], rfl, .array rfl, fun pair listed => .inr ?_⟩
      obtain rfl : pair = (.cell 0, .cell 5) := List.mem_singleton.1 listed
      exact ⟨_, rfl, form⟩

end Store

/-- The album is saved alike with the form in the list, and its cover is read back when it is set. -/
theorem Document.album_alike_and_cover_reread :
    let document : Document := ⟨true, "album", 0, none, 2, none⟩
    let set := document.setBlob Store.albumStore "cover" (.ofContent (.text "image/png") (some [1, 2]))
    document.SavedAlike Store.albumStore Store.albumStoreWithForm document
      ∧ ∃ reference after, set.referToBlob (document.property set "cover") = .ok (reference, after)
        ∧ after.blob? reference = some (.ofContent (.text "image/png") (some [1, 2])) := by
  intro document set
  have read : Store.albumStore.read? document.bag =
      some (.object [("cover", .cell 0), ("pages", .cell 1)]) := rfl
  have held : Store.albumStore.blob? (.cell 0) =
      some (.ofContent (.text "image/png") (some [1, 2])) := rfl
  have agree := setters_agree_on_blobs read held "cover"
  obtain ⟨reference, after, loaded, referred, found, reread⟩ := agree.reread
  obtain ⟨intact, noCircle⟩ := Store.founded_iff.1 Store.founded_album
  rw [reread.made _ _ rfl] at found
  exact ⟨agree.replaced _ intact noCircle Store.replacesBlobs_album, reference, after, referred,
    found⟩

end DocumentStore
