import HarnessSdk.Catalogue.Epochs

/-! Following the cursors of pages while the catalogue is written. -/
namespace Catalogue
open Checks PyDict PyText

inductive Move
  | step (step : Step)
  | page (limit nowMs : Nat)

inductive Outcome
  | reading (cursor : Option String) (listed : List Pin)
  | complete (plane : Plane) (listed : List Pin)
  | stale (plane : Plane)
  | failed (cause : Raised)

def pageCount : List Move → Nat
  | [] => 0
  | .step _ :: rest => pageCount rest
  | .page _ _ :: rest => pageCount rest + 1

namespace Registry

def listedUpTo (registry : Registry) (kind : EntryKind) (position : Nat) : List Pin :=
  (((registry.listLatest kind).take position).filter registry.hasLifecycle).map RevisionRow.pin

def listed (registry : Registry) (kind : EntryKind) : List Pin :=
  ((registry.listLatest kind).filter registry.hasLifecycle).map RevisionRow.pin

variable {registry one other : Registry} {position : Nat} {row : RevisionRow}

theorem listedUpTo_length {kind : EntryKind} (all : (registry.listLatest kind).length ≤ position) :
    registry.listedUpTo kind position = registry.listed kind := by
  rw [listedUpTo, List.take_of_length_le all, listed]

theorem listedUpTo_succ {kind : EntryKind}
    (here : (registry.listLatest kind)[position]? = some row) :
    registry.listedUpTo kind (position + 1) =
      registry.listedUpTo kind position ++
        if registry.hasLifecycle row then [row.pin] else [] := by
  rw [listedUpTo, List.take_add_one, here, Option.toList_some, List.filter_append, List.map_append,
    ← listedUpTo, List.filter_singleton]
  cases registry.hasLifecycle row <;> rfl

theorem listedUpTo_prefix (registry : Registry) (kind : EntryKind) (position : Nat) :
    registry.listedUpTo kind position <+: registry.listed kind :=
  ((List.take_prefix position (registry.listLatest kind)).filter registry.hasLifecycle).map
    RevisionRow.pin

section
variable (agrees : one.Agrees other)
include agrees

theorem Agrees.listLatest (kind : EntryKind) :
    other.listLatest kind = one.listLatest kind := by
  have same : other.isLatest = one.isLatest := by
    funext row
    rw [isLatest, isLatest, agrees.revisions]
  rw [Registry.listLatest, Registry.listLatest, agrees.revisions, same]

theorem Agrees.hasLifecycle :
    other.hasLifecycle = one.hasLifecycle := by
  funext row
  rw [Registry.hasLifecycle, Registry.hasLifecycle, readActivation, readActivation,
    agrees.activations]

theorem Agrees.listedUpTo (kind : EntryKind) (position : Nat) :
    other.listedUpTo kind position = one.listedUpTo kind position := by
  rw [Registry.listedUpTo, Registry.listedUpTo, agrees.listLatest, agrees.hasLifecycle]

end

theorem Sound.latest_unique (sound : registry.Sound) {key key' : EntryKey} {row' : RevisionRow}
    (inside : (key, row) ∈ registry.revisions) (inside' : (key', row') ∈ registry.revisions)
    (kinds : row.entryKind = row'.entryKind) (ids : row.entryId = row'.entryId)
    (latest : registry.isLatest row = true) (latest' : registry.isLatest row' = true) :
    row = row' := by
  have below := List.all_eq_true.mp latest _ inside'
  have above := List.all_eq_true.mp latest' _ inside
  simp only [kinds, ids, decide_true, Bool.and_self, Bool.not_true, Bool.false_or,
    decide_eq_true_eq] at below above
  have keys_eq : row.key = row'.key := by
    rw [RevisionRow.key, RevisionRow.key, kinds, ids, le_antisymm above below]
  have one := get?_eq_some_of_mem sound.distinct inside
  have other := get?_eq_some_of_mem sound.distinct inside'
  rw [← sound.keyed _ _ inside, keys_eq, sound.keyed _ _ inside', other] at one
  exact (Option.some.inj one).symm

theorem mem_listLatest {kind : EntryKind} :
    row ∈ registry.listLatest kind ↔
      (∃ key, (key, row) ∈ registry.revisions) ∧ row.entryKind = kind ∧
        registry.isLatest row = true := by
  rw [listLatest, List.mem_insertionSort, List.mem_filter, List.mem_map]
  simp

theorem Sound.latestRevision (sound : registry.Sound) (kind : EntryKind) (row : RevisionRow) :
    registry.latestRevision kind row.entryId = some row ↔ row ∈ registry.listLatest kind := by
  rw [mem_listLatest]
  constructor
  · intro found
    have satisfied := List.find?_some found
    simp only [Bool.and_eq_true, decide_eq_true_eq] at satisfied
    exact ⟨latestRevision_mem found, satisfied.1.1, satisfied.2⟩
  · intro listed
    obtain ⟨⟨key, inside⟩, kinds, latest⟩ := listed
    cases found : registry.latestRevision kind row.entryId with
    | none =>
      have absent := List.find?_eq_none.mp found row
        (List.mem_map_of_mem (f := (·.2)) inside)
      simp [kinds, latest] at absent
    | some other =>
      have satisfied := List.find?_some found
      simp only [Bool.and_eq_true, decide_eq_true_eq] at satisfied
      obtain ⟨key', inside'⟩ := latestRevision_mem found
      rw [sound.latest_unique inside' inside (satisfied.1.1.trans kinds.symm) satisfied.1.2
        satisfied.2 latest]

theorem Sound.listLatest_sorted (sound : registry.Sound) (kind : EntryKind) :
    (registry.listLatest kind).Pairwise fun row row' => row.entryId < row'.entryId := by
  have total : Std.Total fun row row' : RevisionRow => row.entryId ≤ row'.entryId :=
    ⟨fun row row' => le_total row.entryId row'.entryId⟩
  have trans : IsTrans RevisionRow fun row row' => row.entryId ≤ row'.entryId :=
    ⟨fun _ _ _ => le_trans⟩
  have sorted : (registry.listLatest kind).Pairwise fun row row' => row.entryId ≤ row'.entryId :=
    List.pairwise_insertionSort _ _
  have apart : (registry.listLatest kind).Nodup := by
    rw [listLatest, (List.perm_insertionSort _ _).nodup_iff]
    apply List.Nodup.filter
    have distinct := sound.distinct
    rw [keys, List.Nodup, List.pairwise_map] at distinct
    rw [List.Nodup, List.pairwise_map]
    apply List.Pairwise.imp_of_mem _ distinct
    intro entry entry' inside inside' different same
    apply different
    rw [← sound.keyed entry.1 entry.2 inside, ← sound.keyed entry'.1 entry'.2 inside', same]
  apply List.Pairwise.imp_of_mem _ (sorted.and apart)
  intro row row' inside inside' both
  apply lt_of_le_of_ne both.1
  intro ids
  obtain ⟨⟨key, member⟩, kinds, latest⟩ := mem_listLatest.mp inside
  obtain ⟨⟨key', member'⟩, kinds', latest'⟩ := mem_listLatest.mp inside'
  exact both.2 (sound.latest_unique member member' (kinds.trans kinds'.symm) ids latest latest')

end Registry

variable {registry : Registry} (host : Host)

theorem measured_items (page : CataloguePage) (rounds : Nat) :
    (measured host page rounds).items = page.items ∧
      (measured host page rounds).nextCursor = page.nextCursor := by
  induction rounds generalizing page with
  | zero => exact ⟨rfl, rfl⟩
  | succ rounds ih =>
    unfold measured
    dsimp only
    split
    · exact ⟨rfl, rfl⟩
    · exact ih _

theorem Registry.summary_ref {row : RevisionRow} {activation : ActivationRow} {view : AccessView}
    {nowMs : Nat} {item : CatalogueSummary}
    (made : registry.summary row activation view nowMs = .ok item) :
    item.definitionRef = row.pin := by
  obtain ⟨_, made⟩ := then_eq_ok.mp made
  cases made
  rfl

theorem cursorOffset_cursorText (current epoch position : Nat) :
    cursorOffset host current (cursorText epoch position) =
      if epoch = current then .ok (position : Int) else .error (.arp "CATALOGUE_STALE") := by
  have colon : ':' ∈ (cursorText epoch position).toList := by
    simp [cursorText, String.toList_append]
  have parts : splitOnce ':' (cursorText epoch position) = (toString epoch, toString position) :=
    splitOnce_append (colon_not_mem_repr epoch) (toString position)
  unfold cursorOffset
  rw [splitColon, if_pos colon, parts]
  dsimp only
  rw [pyInt_toString, pyInt_toString]
  dsimp only
  by_cases same : epoch = current
  · simp [same]
  · have different : ¬ (epoch : Int) = current := by omega
    simp [same, different]

namespace Service
variable {service : Service} {host : Host}

/-- The cursors of the kind pass their schema, and so does each entry's summary, which fits a page. -/
def Readable (service : Service) (host : Host) (registry : Registry) (command : ReadCommand) :
    Prop :=
  (∀ position : Nat, position < (registry.listLatest command.kind).length →
    CursorFits (cursorText registry.epoch position)) ∧
  ∀ position row activation, (registry.listLatest command.kind)[position]? = some row →
    registry.readActivation row.entryKind row.entryId row.revision = some activation →
    ∃ item, registry.summary row activation command.accessView command.nowMs = .ok item ∧
      (service.pageOf host registry command [item] true
        (some (cursorText registry.epoch (position + 1 : Nat)))).bodyBytes ≤ pageBytesMax

theorem fillPage_reads {registry : Registry} {command : ReadCommand}
    (readable : service.Readable host registry command) (limited : 1 ≤ command.limit)
    (before : List Pin) (turns : Nat) {position : Nat} {items : List CatalogueSummary}
    (left : position + turns = (registry.listLatest command.kind).length)
    (so_far : before ++ items.map CatalogueSummary.definitionRef =
      registry.listedUpTo command.kind position) :
    ∃ items' : List CatalogueSummary, ∃ position' : Nat,
      service.fillPage host registry command (registry.listLatest command.kind) turns position
        items = .ok (items', (position' : Int)) ∧
      position ≤ position' ∧ position' ≤ (registry.listLatest command.kind).length ∧
      before ++ items'.map CatalogueSummary.definitionRef =
        registry.listedUpTo command.kind position' ∧
      (items = [] → 0 < turns → position < position') := by
  induction turns generalizing position items with
  | zero =>
    exact ⟨items, position, rfl, le_refl _, by omega, so_far, fun _ none => absurd none (by omega)⟩
  | succ turns ih =>
    have inside : position < (registry.listLatest command.kind).length := by omega
    obtain ⟨row, here⟩ : ∃ row, (registry.listLatest command.kind)[position]? = some row :=
      ⟨_, List.getElem?_eq_getElem inside⟩
    have indexed : pyIndex (registry.listLatest command.kind) position = some row := by
      simpa [pyIndex] using here
    have grown := Registry.listedUpTo_succ here
    unfold fillPage
    by_cases room : items.length < min command.limit pageItemsMax
    · rw [if_pos ⟨by exact_mod_cast inside, room⟩, indexed]
      dsimp only
      cases found : registry.readActivation row.entryKind row.entryId row.revision with
      | none =>
        have absent : registry.hasLifecycle row = false := by rw [Registry.hasLifecycle, found]; rfl
        rw [absent] at grown
        obtain ⟨items', position', done, more, most, listed, _⟩ :=
          @ih (position + 1) items (by omega) (by simpa [grown] using so_far)
        exact ⟨items', position', done, by omega, most, listed, fun _ _ => by omega⟩
      | some activation =>
        have present : registry.hasLifecycle row = true := by rw [Registry.hasLifecycle, found]; rfl
        obtain ⟨item, made, fits⟩ := readable.2 position row activation here found
        have ref := Registry.summary_ref made
        dsimp only
        rw [made]
        dsimp only [bind, Except.bind]
        split
        · rename_i large
          by_cases first : items = []
          · rw [first] at large
            exact absurd fits (by simpa using large)
          · rw [if_neg first]
            exact ⟨items, position, rfl, le_refl _, by omega, so_far,
              fun empty => absurd empty first⟩
        · rw [present] at grown
          obtain ⟨items', position', done, more, most, listed, _⟩ :=
            @ih (position + 1) (items ++ [item]) (by omega) (by
              rw [grown, List.map_append, ← List.append_assoc, so_far]
              simp [ref])
          exact ⟨items', position', done, by omega, most, listed, fun _ _ => by omega⟩
    · rw [if_neg fun both => room both.2]
      refine ⟨items, position, rfl, le_refl _, by omega, so_far, fun empty => ?_⟩
      rw [empty] at room
      simp [pageItemsMax] at room
      omega

theorem page_reads {registry : Registry} {command : ReadCommand} {position : Nat}
    (kinds : command.kind ∈ [EntryKind.capability, .provider, .tool, .skill])
    (limits : 1 ≤ command.limit ∧ command.limit ≤ 64)
    (bound : command.namespaceId = service.namespaceId)
    (cursor : (command.cursor = none ∧ position = 0) ∨
      command.cursor = some (cursorText registry.epoch position))
    (fits : ∀ cursor ∈ command.cursor, CursorFits cursor)
    (readable : service.Readable host registry command) {before : List Pin}
    (so_far : before = registry.listedUpTo command.kind position)
    (within : position ≤ (registry.listLatest command.kind).length) :
    ∃ page : CataloguePage, ∃ position' : Nat, service.page host registry command = .ok page ∧
      before ++ page.items.map CatalogueSummary.definitionRef =
        registry.listedUpTo command.kind position' ∧
      page.nextCursor = (if position' < (registry.listLatest command.kind).length then
        some (cursorText registry.epoch position') else none) ∧
      (position < (registry.listLatest command.kind).length → position < position') := by
  obtain ⟨items, position', done, _, most, listed, moved⟩ :=
    @fillPage_reads _ _ _ _ readable limits.1 before
      ((registry.listLatest command.kind).length - position) position [] (by omega)
      (by simpa using so_far)
  have offset : startOf host registry.epoch command.cursor = .ok (position : Int) := by
    rcases cursor with ⟨first, start⟩ | given
    · rw [first, start]
      rfl
    · rw [given, startOf, cursorOffset_cursorText, if_pos rfl]
  have turns : ((registry.listLatest command.kind).length - (position : Int)).toNat =
      (registry.listLatest command.kind).length - position := by omega
  unfold page
  rw [require, if_pos kinds, require, if_pos fits, require, if_pos limits, require, if_pos bound]
  dsimp only [bind, Except.bind]
  rw [offset]
  dsimp only
  rw [turns, done]
  refine ⟨_, position', rfl, ?_, ?_, fun more => moved rfl (by omega)⟩
  · rw [pageOf, (measured_items host _ 4).1]
    exact listed
  · rw [pageOf, (measured_items host _ 4).2]
    by_cases more : position' < (registry.listLatest command.kind).length <;> simp [more]

/-- Pages of one kind and view, each from the cursor of the one before. -/
def follow (service : Service) (host : Host) (kind : EntryKind) (view : AccessView) :
    Plane → Option String → List Pin → List Move → Outcome
  | _, cursor, listed, [] => .reading cursor listed
  | plane, cursor, listed, .step step :: rest =>
    follow service host kind view (service.after plane step) cursor listed rest
  | plane, cursor, listed, .page limit nowMs :: rest =>
    match service.page host plane.registry
        ⟨service.namespaceId, kind, cursor, limit, view, nowMs⟩ with
    | .error cause => if cause = .arp "CATALOGUE_STALE" then .stale plane else .failed cause
    | .ok page =>
      match page.nextCursor with
      | none => .complete plane (listed ++ page.items.map CatalogueSummary.definitionRef)
      | some cursor =>
        follow service host kind view plane (some cursor)
          (listed ++ page.items.map CatalogueSummary.definitionRef) rest

/-- Each page has an allowed limit, and is read where every entry can be shown. -/
def AllReadable (service : Service) (host : Host) (kind : EntryKind) (view : AccessView) :
    Plane → List Move → Prop
  | _, [] => True
  | plane, .step step :: rest => AllReadable service host kind view (service.after plane step) rest
  | plane, .page limit nowMs :: rest =>
    (1 ≤ limit ∧ limit ≤ 64) ∧
      service.Readable host plane.registry
        ⟨service.namespaceId, kind, none, limit, view, nowMs⟩ ∧
      AllReadable service host kind view plane rest

end Service

def Outcome.Faithful (first : Registry) (kind : EntryKind) (pages : Nat) : Outcome → Prop
  | .reading _ listed =>
    listed <+: first.listed kind ∧ pages < (first.listLatest kind).length
  | .complete plane listed => listed = first.listed kind ∧ first.Agrees plane.registry
  | .stale plane => first.epoch < plane.registry.epoch
  | .failed _ => False

namespace Service
variable {service : Service} {host : Host}

variable {kind : EntryKind} {view : AccessView} {plane : Plane}

section
variable (kinds : kind ∈ [EntryKind.capability, .provider, .tool, .skill])
include kinds

theorem follow_reads {first : Registry} (moves : List Move)
    {position : Nat} (sound : plane.Sound) (later : first.epoch ≤ plane.registry.epoch)
    (still : plane.registry.epoch = first.epoch → first.Agrees plane.registry)
    (within : position < (first.listLatest kind).length)
    (fits : CursorFits (cursorText first.epoch position))
    (readable : service.AllReadable host kind view plane moves) :
    (service.follow host kind view plane (some (cursorText first.epoch position))
      (first.listedUpTo kind position) moves).Faithful first kind
        (position + pageCount moves) := by
  induction moves generalizing plane position with
  | nil => exact ⟨first.listedUpTo_prefix kind position, within⟩
  | cons move rest ih =>
    cases move with
    | step step =>
      obtain ⟨counted, sound', _⟩ := @after_counts service _ sound step
      apply ih sound' _ _ within fits readable
      · rcases counted with same | more <;> omega
      · intro equal
        rcases counted with ⟨agrees, same⟩ | more
        · exact (still (by omega)).trans agrees
        · omega
    | page limit nowMs =>
      obtain ⟨limits, shown, readable'⟩ := readable
      have given : ∀ cursor ∈ some (cursorText first.epoch position), CursorFits cursor := by
        simpa using fits
      rw [follow]
      by_cases current : plane.registry.epoch = first.epoch
      · have agrees := still current
        obtain ⟨page, position', done, listed, next, moved⟩ :=
          @page_reads service host _
            ⟨service.namespaceId, kind, some (cursorText first.epoch position), limit,
              view, nowMs⟩ position kinds limits rfl (Or.inr (by rw [current])) given shown
            (first.listedUpTo kind position) (agrees.listedUpTo kind position).symm
            (by rw [agrees.listLatest]; exact within.le)
        dsimp only at listed next moved
        rw [agrees.listedUpTo] at listed
        rw [agrees.listLatest, current] at next
        rw [agrees.listLatest] at moved
        rw [done]
        dsimp only
        rw [next, listed]
        by_cases more : position' < (first.listLatest kind).length
        · rw [if_pos more]
          dsimp only
          have forward := moved within
          have fits' : CursorFits (cursorText first.epoch position') := by
            rw [← current]
            exact shown.1 position' (by rw [agrees.listLatest]; exact more)
          have kept := ih sound later still more fits' readable'
          revert kept
          cases service.follow host kind view plane (some (cursorText first.epoch position'))
              (first.listedUpTo kind position') rest with
          | reading cursor shown' =>
            intro kept
            refine ⟨kept.1, ?_⟩
            have few := kept.2
            rw [pageCount]
            omega
          | complete plane' shown' => exact id
          | stale plane' => exact id
          | failed cause => exact id
        · rw [if_neg more]
          exact ⟨Registry.listedUpTo_length (by omega), agrees⟩
      · have gone : service.page host plane.registry ⟨service.namespaceId, kind,
            some (cursorText first.epoch position), limit, view, nowMs⟩ =
              .error (.arp "CATALOGUE_STALE") := by
          unfold page
          rw [require, if_pos kinds, require, if_pos given, require, if_pos limits, require,
            if_pos rfl]
          dsimp only [bind, Except.bind]
          rw [startOf, cursorOffset_cursorText, if_neg fun same => current same.symm]
        rw [gone]
        dsimp only
        rw [if_pos rfl]
        have moved : first.epoch < plane.registry.epoch := by omega
        exact moved

theorem follow_faithful
    (sound : plane.Sound) {limit nowMs : Nat} {moves : List Move}
    (readable : service.AllReadable host kind view plane (.page limit nowMs :: moves)) :
    (service.follow host kind view plane none [] (.page limit nowMs :: moves)).Faithful
      plane.registry kind (pageCount (.page limit nowMs :: moves)) := by
  obtain ⟨limits, shown, readable'⟩ := readable
  obtain ⟨page, position, done, listed, next, moved⟩ :=
    @page_reads service host _ ⟨service.namespaceId, kind, none, limit, view, nowMs⟩ 0 kinds
      limits rfl (Or.inl ⟨rfl, rfl⟩) (by simp) shown [] rfl (Nat.zero_le _)
  dsimp only at listed next moved
  rw [follow, done]
  dsimp only
  rw [next, listed]
  by_cases more : position < (plane.registry.listLatest kind).length
  · rw [if_pos more]
    dsimp only
    have forward := moved (by omega)
    have kept := follow_reads kinds moves sound (le_refl _) (fun _ => .refl _) more
      (shown.1 position more) readable'
    revert kept
    cases service.follow host kind view plane (some (cursorText plane.registry.epoch position))
        (plane.registry.listedUpTo kind position) moves with
    | reading cursor shown' =>
      intro kept
      refine ⟨kept.1, ?_⟩
      have few := kept.2
      rw [pageCount]
      omega
    | complete plane' shown' => exact id
    | stale plane' => exact id
    | failed cause => exact id
  · rw [if_neg more]
    exact ⟨Registry.listedUpTo_length (by omega), .refl _⟩

end

end Service

/-- Empty or too long, no colon, no number after it, or another number before it. -/
def CursorRefused (host : Host) (epoch : Nat) (cursor : String) : Prop :=
  ¬ Service.CursorFits cursor ∨ splitColon cursor = none ∨
    ∃ parts ∈ splitColon cursor,
      pyInt host.decimal parts.2 = none ∨
        ∃ stated ∈ pyInt host.decimal parts.1, stated ≠ (epoch : Int)

theorem cursorOffset_refused (epoch : Nat) (cursor : String) :
    (¬ Service.CursorFits cursor ∨ ∃ code, cursorOffset host epoch cursor = .error (.arp code)) ↔
      CursorRefused host epoch cursor := by
  unfold cursorOffset CursorRefused
  refine or_congr_right ?_
  cases splitColon cursor with
  | none => simp
  | some parts =>
    obtain ⟨stated, text⟩ := parts
    cases offset : pyInt host.decimal text with
    | none => simp [offset]
    | some position =>
      cases number : pyInt host.decimal stated with
      | none => simp [offset, number]
      | some n =>
        by_cases same : n = epoch
        · simp [offset, number, same]
        · simp [offset, number, same]

theorem Service.page_refuses {service : Service} {host : Host} {command : ReadCommand}
    {cursor : String} (given : command.cursor = some cursor)
    (refused : CursorRefused host registry.epoch cursor) :
    ∃ code, service.page host registry command = .error (.arp code) := by
  unfold page require
  by_cases kinds : command.kind ∈ [EntryKind.capability, .provider, .tool, .skill]
  · rw [if_pos kinds]
    by_cases fits : ∀ cursor ∈ command.cursor, CursorFits cursor
    · rw [if_pos fits]
      by_cases limits : 1 ≤ command.limit ∧ command.limit ≤ 64
      · rw [if_pos limits]
        by_cases bound : command.namespaceId = service.namespaceId
        · obtain ⟨code, raised⟩ := ((cursorOffset_refused host registry.epoch cursor).mpr
            refused).resolve_left (not_not.mpr (fits cursor given))
          rw [if_pos bound, given]
          dsimp only [bind, Except.bind]
          rw [startOf, raised]
          exact ⟨code, rfl⟩
        · rw [if_neg bound]
          exact ⟨_, rfl⟩
      · rw [if_neg limits]
        exact ⟨_, rfl⟩
    · rw [if_neg fits]
      exact ⟨_, rfl⟩
  · rw [if_neg kinds]
    exact ⟨_, rfl⟩

/-- Digests are the texts themselves, and every body passes. -/
def plainService : Service where
  namespaceId := "n"
  scopeRef := ⟨"scope", "s", 0, ""⟩
  digest := Definition.rest
  authorityHash := fun _ _ => ""
  receiptHash := fun _ _ _ => ""
  check := fun _ _ => .ok ()

def plainHost : Host := ⟨fun _ => 0, fun _ => none⟩

def plainCaller : TrustedCaller := ⟨"p", ⟨"receipt", "r", 0, ""⟩⟩

def plainDefinition (required : List Pin) : Definition where
  name := none
  toolId := none
  providerId := none
  capabilityId := none
  description := none
  providerRef := ⟨"provider", "a", 1, ""⟩
  requiredCapabilities := required
  capabilityRef := ⟨"capability", "c", 1, ""⟩
  inputSchemaRef := ⟨"schema", "i", 1, ""⟩
  outputSchemaRef := ⟨"schema", "i", 1, ""⟩
  supportedCapabilities := []
  platforms := []
  fileSizes := []
  rest := ""

def registered (kind : EntryKind) (entryId : String) (required : List Pin) : Step :=
  .register ⟨kind, plainDefinition required, entryId, plainCaller, "x", none⟩

def admitting (kind : EntryKind) (entryId : String) : List Step :=
  [LifecycleState.trial, .admitted].map fun state =>
    .transition ⟨⟨kind.pinKind, entryId, 1, ""⟩, state, plainCaller, "x", none, none⟩
      ⟨true, fun _ => none⟩

def oneTool : List Step :=
  [registered .schema "i" [], registered .provider "a" [], registered .deployment "d" [],
    registered .tool "t" []] ++
    admitting .schema "i" ++ admitting .provider "a" ++ admitting .deployment "d" ++
    admitting .tool "t" ++
    [.probe ⟨⟨"deployment", "d", 1, ""⟩, .ready, true, true, true, 100, "x"⟩ 0]

def asking (authorityRefs : List Pin) : Prepare := ⟨"s", 1, ["t"], authorityRefs, 0⟩

def longName : String := String.ofList (List.replicate 240 'c')

def needingLong : List Step :=
  [registered .capability longName [],
    registered .tool "t" [⟨"capability", longName, 1, ""⟩]]

def toolPage (cursor : Option String) : ReadCommand := ⟨"n", .tool, cursor, 64, .model, 0⟩

end Catalogue
