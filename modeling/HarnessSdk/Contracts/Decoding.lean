import HarnessSdk.Contracts.SemanticBase

/-! What the boundary decoders accept, and that they read back what the encoders write. -/
namespace Contracts
open PyDict PyText Checks Workflow

mutual
def clean : Json → Bool
  | .str s => !looksLikeCode s
  | .arr items => cleanItems items
  | .obj fields => cleanFields fields
  | _ => true

def cleanItems : List Json → Bool
  | [] => true
  | item :: rest => clean item && cleanItems rest

def cleanFields : List (String × Json) → Bool
  | [] => true
  | field :: rest => !looksLikeCode field.1 && clean field.2 && cleanFields rest
end

mutual
theorem rejectExecutable_eq_ok (value : Json) (name : String) :
    rejectExecutable value name = .ok () ↔ clean value = true := by
  cases value with
  | str s => by_cases code : looksLikeCode s = true <;> simp [rejectExecutable, clean, code]
  | arr items => simpa only [rejectExecutable, clean] using rejectItems_eq_ok items _
  | obj fields => simpa only [rejectExecutable, clean] using rejectFields_eq_ok fields _
  | _ => simp [rejectExecutable, clean]
termination_by structural value

theorem rejectItems_eq_ok (items : List Json) (name : String) :
    rejectItems items name = .ok () ↔ cleanItems items = true := by
  cases items with
  | nil => simp [rejectItems, cleanItems]
  | cons item rest =>
    rw [rejectItems, then_eq_ok, rejectExecutable_eq_ok item, rejectItems_eq_ok rest, cleanItems,
      Bool.and_eq_true]
termination_by structural items

theorem rejectFields_eq_ok (fields : List (String × Json)) (name : String) :
    rejectFields fields name = .ok () ↔ cleanFields fields = true := by
  cases fields with
  | nil => simp [rejectFields, cleanFields]
  | cons field rest =>
    obtain ⟨key, value⟩ := field
    by_cases code : looksLikeCode key = true
    · simp [rejectFields, cleanFields, code, bind, Except.bind]
    · have pass : rejectFields ((key, value) :: rest) name =
          (do rejectExecutable value (name ++ "." ++ key); rejectFields rest name) := by
        simp [rejectFields, code, bind, Except.bind]
      rw [pass, then_eq_ok, rejectExecutable_eq_ok value, rejectFields_eq_ok rest]
      simp [cleanFields, code]
termination_by structural fields
end

def codeMarkerCodes : List (List Nat) :=
  [[101, 118, 97, 108, 40], [101, 120, 101, 99, 40], [108, 97, 109, 98, 100, 97, 32],
    [95, 95, 105, 109, 112, 111, 114, 116, 95, 95], [105, 109, 112, 111, 114, 116, 32, 111, 115],
    [115, 117, 98, 112, 114, 111, 99, 101, 115, 115], [115, 101, 108, 101, 99, 116, 32],
    [105, 110, 115, 101, 114, 116, 32, 105, 110, 116, 111], [117, 112, 100, 97, 116, 101, 32],
    [100, 101, 108, 101, 116, 101, 32, 102, 114, 111, 109],
    [100, 114, 111, 112, 32, 116, 97, 98, 108, 101],
    [117, 110, 105, 111, 110, 32, 97, 108, 108], [45, 45, 59]]

def readsLikeCode (value : String) : Bool :=
  let codes := (stripChars (chars value)).map fun c => lowerCode c.toNat
  codeMarkerCodes.any fun marker => standsIn marker codes

theorem looksLikeCode_eq_reads : looksLikeCode = readsLikeCode := by
  have codes : codeMarkerCodes = codeMarkers.map fun marker => marker.toList.map Char.toNat := by
    decide +kernel
  funext value
  rw [looksLikeCode, marked, readsLikeCode, codes, chars_eq, List.any_map]
  rfl

mutual
/-- `clean`, read off the bytes of the texts. -/
def cleanRead : Json → Bool
  | .str s => !readsLikeCode s
  | .arr items => cleanItemsRead items
  | .obj fields => cleanFieldsRead fields
  | _ => true

def cleanItemsRead : List Json → Bool
  | [] => true
  | item :: rest => cleanRead item && cleanItemsRead rest

def cleanFieldsRead : List (String × Json) → Bool
  | [] => true
  | field :: rest => !readsLikeCode field.1 && cleanRead field.2 && cleanFieldsRead rest
end

mutual
theorem clean_eq_read (value : Json) : clean value = cleanRead value := by
  cases value with
  | str s => rw [clean, cleanRead, looksLikeCode_eq_reads]
  | arr items => rw [clean, cleanRead, cleanItems_eq_read items]
  | obj fields => rw [clean, cleanRead, cleanFields_eq_read fields]
  | _ => rfl
termination_by structural value

theorem cleanItems_eq_read (items : List Json) : cleanItems items = cleanItemsRead items := by
  cases items with
  | nil => rfl
  | cons item rest =>
    rw [cleanItems, cleanItemsRead, clean_eq_read item, cleanItems_eq_read rest]
termination_by structural items

theorem cleanFields_eq_read (fields : List (String × Json)) :
    cleanFields fields = cleanFieldsRead fields := by
  cases fields with
  | nil => rfl
  | cons field rest =>
    rw [cleanFields, cleanFieldsRead, looksLikeCode_eq_reads, clean_eq_read field.2,
      cleanFields_eq_read rest]
termination_by structural fields
end

variable {value : Json} {fields : List (String × Json)} {data : Dict String Json} {minimum : Nat}

variable {name : String}

theorem accepted_of_read (plain : cleanRead value = true) : rejectExecutable value name = .ok () :=
  (rejectExecutable_eq_ok value name).mpr ((clean_eq_read value).trans plain)

theorem cleanItems_iff {items : List Json} :
    cleanItems items = true ↔ ∀ item ∈ items, clean item = true := by
  induction items with
  | nil => simp [cleanItems]
  | cons item rest ih => simp [cleanItems, ih]

theorem cleanFields_iff :
    cleanFields fields = true ↔
      ∀ field ∈ fields, looksLikeCode field.1 = false ∧ clean field.2 = true := by
  induction fields with
  | nil => simp [cleanFields]
  | cons field rest ih => simp [cleanFields, ih, and_assoc]

theorem clean_field (whole : clean (.obj data) = true) (key : String) :
    clean (field data key) = true := by
  rw [clean, cleanFields_iff] at whole
  rw [field]
  cases found : get? data key with
  | none => rfl
  | some value => exact (whole _ (mem_of_get?_eq_some found)).2

theorem field_cons (name key : String) (value : Json) (rest : Dict String Json) :
    field ((name, value) :: rest) key = if name = key then value else field rest key := by
  simp only [field, get?]
  split <;> rfl

theorem identifier_eq_ok {id : Identifier} :
    identifier value name = .ok id ↔ value = .str id.text := by
  constructor
  · intro ok
    simp only [identifier] at ok
    split at ok
    · split at ok
      · cases ok
        rfl
      · split at ok <;> cases ok
    · cases ok
  · rintro rfl
    simp [identifier, id.wellFormed]

@[simp] theorem identifier_str (id : Identifier) (name : String) :
    identifier (.str id.text) name = .ok id :=
  identifier_eq_ok.mpr rfl

theorem text_eq_ok {t : BoundedText} : text value name = .ok t ↔ value = .str t.text := by
  constructor
  · intro ok
    simp only [text] at ok
    split at ok
    · split at ok
      · cases ok
        rfl
      · cases ok
    · cases ok
  · rintro rfl
    simp [text, t.wellFormed]

@[simp] theorem text_str (t : BoundedText) (name : String) :
    text (.str t.text) name = .ok t :=
  text_eq_ok.mpr rfl

theorem hashHex_eq_ok {digest : HashHex} :
    hashHex value name = .ok digest ↔ value = .str digest.text := by
  constructor
  · intro ok
    simp only [hashHex] at ok
    split at ok
    · split at ok
      · cases ok
        rfl
      · cases ok
    · cases ok
  · rintro rfl
    simp [hashHex, digest.wellFormed]

@[simp] theorem hashHex_str (digest : HashHex) (name : String) :
    hashHex (.str digest.text) name = .ok digest :=
  hashHex_eq_ok.mpr rfl

theorem index_eq_ok {least : Nat} {counter : Counter least} :
    index least value name = .ok counter ↔ value = .int counter.number := by
  constructor
  · intro ok
    simp only [index] at ok
    split at ok
    · split at ok
      · split at ok
        · cases ok
          rfl
        · cases ok
      · cases ok
    · cases ok
    · cases ok
  · rintro rfl
    show index least (.int (.ofNat counter.number)) name = _
    simp [index, counter.atLeast, counter.safe]

@[simp] theorem index_int {least : Nat} (counter : Counter least) (name : String) :
    index least (.int counter.number) name = .ok counter :=
  index_eq_ok.mpr rfl

theorem enumOf_memberText {α : Type} [DecidableEq α] {members : List (String × α)}
    (distinct : (keys members).Nodup) {member : α} (known : member ∈ members.map Prod.snd)
    (name : String) : enumOf members (.str (memberText members member)) name = .ok member := by
  obtain ⟨entry, inside, rfl⟩ := List.mem_map.mp known
  obtain ⟨found, here⟩ : ∃ found, members.find? (·.2 = entry.2) = some found := by
    rw [← Option.isSome_iff_exists, List.find?_isSome]
    exact ⟨entry, inside, by simp⟩
  have same : found.2 = entry.2 := by simpa using List.find?_some here
  have read := get?_eq_some_of_mem distinct (List.mem_of_find?_eq_some here)
  simp [enumOf, memberText, here, read, same]

theorem fieldsOf_eq_ok {required optional : List String}
    (ok : fieldsOf value name required optional = .ok data) : value = .obj data := by
  simp only [fieldsOf] at ok
  split at ok
  · split at ok
    · cases ok
    · split at ok <;> cases ok
      rfl
  · cases ok

theorem fieldsOf_obj {fields : Dict String Json} {required optional : List String}
    (complete : ∀ key ∈ required, key ∈ keys fields)
    (known : ∀ key ∈ keys fields, key ∈ required ∨ key ∈ optional) (name : String) :
    fieldsOf (.obj fields) name required optional = .ok fields := by
  have missing : required.filter (· ∉ keys fields) = [] := by
    simpa [List.filter_eq_nil_iff] using complete
  have unknown : (keys fields).filter (fun key => key ∉ required ∧ key ∉ optional) = [] := by
    simp only [List.filter_eq_nil_iff, decide_eq_true_eq]
    rintro key inside ⟨absent, other⟩
    exact (known key inside).elim absent other
  simp only [fieldsOf]
  rw [if_neg (by simpa using missing), if_neg (by simpa using unknown)]

variable {α : Type} {encode : α → Json} {items : List α}

section
variable {item : Json → String → Nat → Except Message (α × Nat)} {norm : α → α} {size : α → Nat}

theorem sequenceWith_map
    (each : ∀ a ∈ items, ∀ name budget,
      item (encode a) name (size a + budget) = .ok (norm a, budget))
    (name : String) (position budget : Nat) :
    sequenceWith item name position (items.map encode) ((items.map size).sum + budget) =
      .ok (items.map norm, budget) := by
  induction items generalizing position with
  | nil => simp [sequenceWith]
  | cons a rest ih =>
    have first := each a List.mem_cons_self s!"{name}[{position}]"
      ((rest.map size).sum + budget)
    have later := ih (fun b hb => each b (List.mem_cons_of_mem a hb)) (position + 1)
    simp only [List.map_cons, List.sum_cons, sequenceWith, Nat.add_assoc]
    rw [first]
    simp only [bind, Except.bind]
    rw [later]

variable {rest budget : Nat} {good : α → Prop}

/-- What every accepted entry has, the entries of an accepted sequence have; the budget pays for
each of them. -/
theorem of_sequenceWith
    (each : ∀ entry name budget a rest, item entry name budget = .ok (a, rest) → good a ∧ budget =
      size a + rest) {entries : List Json} {position : Nat}
    (ok : sequenceWith item name position entries budget = .ok (items, rest)) :
    (∀ a ∈ items, good a) ∧ budget = (items.map size).sum + rest := by
  induction entries generalizing items position budget with
  | nil =>
    cases ok
    simp
  | cons entry later ih =>
    obtain ⟨⟨first, left⟩, here, ok⟩ := bind_eq_ok.mp ok
    obtain ⟨⟨others, left'⟩, there, ok⟩ := bind_eq_ok.mp ok
    cases ok
    obtain ⟨goodFirst, paid⟩ := each _ _ _ _ _ here
    obtain ⟨goodLater, paidLater⟩ := ih there
    simp only [List.forall_mem_cons, List.map_cons, List.sum_cons]
    exact ⟨⟨goodFirst, goodLater⟩, by omega⟩

theorem checkLength_eq_ok :
    checkLength name minimum items = .ok () ↔
      minimum ≤ items.length ∧ items.length ≤ maxList := by
  unfold checkLength
  split
  · simp; omega
  · split
    · simp; omega
    · simp; omega

theorem sequenceOf_map
    (each : ∀ a ∈ items, ∀ name budget, item (encode a) name (size a + budget) = .ok (norm a,
      budget)) (least : minimum ≤ items.length) (short : items.length ≤ maxList) (name : String)
    (budget : Nat) :
    sequenceOf (.arr (items.map encode)) name item minimum ((items.map size).sum + budget) =
      .ok (items.map norm, budget) := by
  have length : checkLength name minimum (items.map norm) = .ok () :=
    checkLength_eq_ok.mpr (by simpa using ⟨least, short⟩)
  simp only [sequenceOf]
  rw [sequenceWith_map each]
  simp only [bind, Except.bind, length]

theorem of_sequenceOf
    (each : ∀ entry name budget a rest, item entry name budget = .ok (a, rest) → good a ∧ budget =
      size a + rest)
    (ok : sequenceOf value name item minimum budget = .ok (items, rest)) :
    (∀ a ∈ items, good a) ∧ budget = (items.map size).sum + rest ∧ items.length ≤ maxList := by
  simp only [sequenceOf] at ok
  split at ok
  · obtain ⟨⟨read, left⟩, inside, ok⟩ := bind_eq_ok.mp ok
    obtain ⟨length, ok⟩ := then_eq_ok.mp ok
    cases ok
    obtain ⟨all, paid⟩ := of_sequenceWith each inside
    exact ⟨all, paid, (checkLength_eq_ok.mp length).2⟩
  · cases ok

theorem length_of_sequenceOf
    (ok : sequenceOf value name item minimum budget = .ok (items, rest)) : items.length ≤ maxList := by
  simp only [sequenceOf] at ok
  split at ok
  · obtain ⟨⟨read, left⟩, _, ok⟩ := bind_eq_ok.mp ok
    obtain ⟨length, ok⟩ := then_eq_ok.mp ok
    cases ok
    exact (checkLength_eq_ok.mp length).2
  · cases ok

def entriesWith {α : Type} (item : Json → String → Nat → Except Message (α × Nat))
    (keyName name : String) :
    List (String × Json) → Nat → Except Message (List (String × α) × Nat)
  | [], budget => .ok ([], budget)
  | (key, value) :: rest, budget => do
    let id ← identifier (.str key) keyName
    let (first, budget) ← item value (name ++ "." ++ key) budget
    let (later, budget) ← entriesWith item keyName name rest budget
    .ok ((id.text, first) :: later, budget)

theorem entriesWith_map {entries : List (String × α)}
    (named : ∀ entry ∈ entries, identifierOk entry.1 = true)
    (each : ∀ entry ∈ entries, ∀ name budget,
      item (encode entry.2) name (size entry.2 + budget) = .ok (entry.2, budget))
    (keyName name : String) (budget : Nat) :
    entriesWith item keyName name (entries.map fun entry => (entry.1, encode entry.2))
      ((entries.map fun entry => size entry.2).sum + budget) = .ok (entries, budget) := by
  induction entries with
  | nil => simp [entriesWith]
  | cons entry rest ih =>
    have key : identifier (.str entry.1) keyName = .ok ⟨entry.1, named entry List.mem_cons_self⟩ :=
      identifier_eq_ok.mpr rfl
    have first := each entry List.mem_cons_self (name ++ "." ++ entry.1)
      ((rest.map fun entry => size entry.2).sum + budget)
    have later := ih (fun e he => named e (List.mem_cons_of_mem entry he))
      fun e he => each e (List.mem_cons_of_mem entry he)
    simp only [List.map_cons, List.sum_cons, entriesWith, Nat.add_assoc, key]
    simp only [bind, Except.bind]
    rw [first]
    simp only
    rw [later]

theorem of_entriesWith
    (each : ∀ entry name budget a rest, item entry name budget = .ok (a, rest) → good a ∧ budget =
      size a + rest) {keyName : String} {entries : List (String × α)}
    (ok : entriesWith item keyName name fields budget = .ok (entries, rest)) :
    (∀ entry ∈ entries, identifierOk entry.1 = true ∧ good entry.2) ∧
      budget = (entries.map fun entry => size entry.2).sum + rest ∧
      keys entries = keys fields := by
  induction fields generalizing entries budget with
  | nil =>
    cases ok
    simp [keys]
  | cons field later ih =>
    obtain ⟨key, value⟩ := field
    obtain ⟨id, named, ok⟩ := bind_eq_ok.mp ok
    obtain ⟨⟨first, left⟩, here, ok⟩ := bind_eq_ok.mp ok
    obtain ⟨⟨others, left'⟩, there, ok⟩ := bind_eq_ok.mp ok
    cases ok
    obtain ⟨goodFirst, paid⟩ := each _ _ _ _ _ here
    obtain ⟨goodLater, paidLater, sameKeys⟩ := ih there
    have same : key = id.text := by simpa using identifier_eq_ok.mp named
    simp only [List.forall_mem_cons, List.map_cons, List.sum_cons]
    refine ⟨⟨⟨id.wellFormed, goodFirst⟩, goodLater⟩, by omega, ?_⟩
    simp only [keys, List.map_cons] at sameKeys ⊢
    rw [sameKeys, same]

end

section
variable {item : Json → String → Except Message α} {rest budget : Nat}

theorem free_eq_ok {a : α} :
    free item value name budget = .ok (a, rest) ↔ item value name = .ok a ∧ budget = rest := by
  rw [free, map_eq_ok]
  constructor
  · rintro ⟨b, ok, same⟩
    cases same
    exact ⟨ok, rfl⟩
  · rintro ⟨ok, rfl⟩
    exact ⟨a, ok, rfl⟩

theorem sequenceWith_free
    (each : ∀ a ∈ items, ∀ name, item (encode a) name = .ok a) (name : String)
    (position budget : Nat) :
    sequenceWith (free item) name position (items.map encode) budget = .ok (items, budget) := by
  have read : sequenceWith (free item) name position (items.map encode)
      ((items.map fun _ => 0).sum + budget) = .ok (items.map id, budget) :=
    sequenceWith_map (fun a inside name budget => free_eq_ok.mpr ⟨each a inside name, by simp⟩)
      name position budget
  simpa using read

theorem sequenceOf_free (each : ∀ a ∈ items, ∀ name, item (encode a) name = .ok a)
    (least : minimum ≤ items.length) (short : items.length ≤ maxList) (name : String)
    (budget : Nat) :
    sequenceOf (.arr (items.map encode)) name (free item) minimum budget =
      .ok (items, budget) := by
  simp only [sequenceOf]
  rw [sequenceWith_free each]
  simp [bind, Except.bind, checkLength_eq_ok.mpr ⟨least, short⟩]

end

theorem identifiers_toJson (ids : Identifiers) (name : String) :
    identifiers (ids.items.map fun id => .str id.text) name = .ok ids := by
  simp only [identifiers]
  rw [sequenceWith_free fun id _ name => identifier_str id name]
  simp [bind, Except.bind, ids.bounded, ids.distinct]

@[simp] theorem VersionedRef.fromJson_toJson (ref : VersionedRef) (name : String) :
    VersionedRef.fromJson ref.toJson name = .ok ref := by
  rw [VersionedRef.fromJson, VersionedRef.toJson, fieldsOf_obj (by simp [keys]) (by simp [keys])]
  simp [field, get?, bind, Except.bind]

theorem VersionedRef.clean_toJson {ref : VersionedRef}
    (ok : VersionedRef.fromJson value name = .ok ref) (whole : clean value = true) :
    clean ref.toJson = true := by
  obtain ⟨data, object, ok⟩ := bind_eq_ok.mp ok
  obtain ⟨id, named, ok⟩ := bind_eq_ok.mp ok
  obtain ⟨version, counted, ok⟩ := bind_eq_ok.mp ok
  obtain ⟨digest, hashed, ok⟩ := bind_eq_ok.mp ok
  cases ok
  rw [fieldsOf_eq_ok object] at whole
  have idClean := clean_field whole "id"
  have digestClean := clean_field whole "content_hash"
  rw [identifier_eq_ok.mp named] at idClean
  rw [hashHex_eq_ok.mp hashed] at digestClean
  have keysClean : ["id", "version", "content_hash"].any looksLikeCode = false := by
    rw [looksLikeCode_eq_reads]
    decide +kernel
  simp only [List.any_cons, Bool.or_eq_false_iff] at keysClean
  simp [VersionedRef.toJson, clean, cleanFields, keysClean] at idClean digestClean ⊢
  exact ⟨idClean, digestClean⟩

@[simp] theorem EvidenceRef.fromJson_toJson (ref : EvidenceRef) (name : String) :
    EvidenceRef.fromJson ref.toJson name = .ok ref := by
  obtain ⟨kind, id, revision, digest, producedBy⟩ := ref
  have read := fun place => @enumOf_memberText _ _ EvidenceRefKind.members (by decide) kind
    (by cases kind <;> decide) place
  cases producedBy with
  | none =>
    rw [EvidenceRef.fromJson, EvidenceRef.toJson, fieldsOf_obj (by simp [keys]) (by simp [keys])]
    simp [field, get?, bind, Except.bind, read, optionally]
  | some who =>
    have made := fun place => @enumOf_memberText _ _ Provenance.members (by decide) who
      (by cases who <;> decide) place
    rw [EvidenceRef.fromJson, EvidenceRef.toJson, fieldsOf_obj (by simp [keys]) (by simp [keys])]
    simp [field, get?, bind, Except.bind, read, optionally, made, Except.map]

end Contracts
