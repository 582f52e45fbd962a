import HarnessSdk.Index.Partition
import HarnessSdk.Library.Text

/-! The windows that a text is cut into before it is indexed. -/
namespace SessionIndex
open PyText

def utf8Length (cs : List Char) : Nat := (cs.map Char.utf8Size).sum

/-- The policy of a chunker; no policy has an overlap of a whole window. -/
structure Chunker where
  chunkTokens : Nat
  overlapTokens : Nat
  count : String → Nat
  valid : overlapTokens < chunkTokens

structure Window where
  utf8Start : Nat
  utf8End : Nat
  text : String
deriving DecidableEq

namespace Chunker
variable (c : Chunker)

def fits (piece : List Char) : Bool :=
  utf8Length piece ≤ MAX_CHUNK_BYTES && c.count (String.ofList piece) ≤ c.chunkTokens

/-- The width of a window of this text: cut by a fifth until it fits, or is one character. -/
def shrunk (text : List Char) : Nat → Nat → Nat
  | 0, width => width
  | fuel + 1, width =>
    if width ≤ 1 ∨ c.fits (text.take width) = true then width
    else shrunk text fuel (max 1 (width * 4 / 5))

def windows : Nat → Nat → List Char → List Window
  | 0, _, _ => []
  | fuel + 1, offset, text =>
    if text = [] then []
    else
      let width := c.shrunk text text.length (min text.length (c.chunkTokens * 4))
      let piece := text.take width
      let window : Window := ⟨offset, offset + utf8Length piece, String.ofList piece⟩
      if text.length ≤ width then [window]
      else
        let step := max 1 (width * (c.chunkTokens - c.overlapTokens) / c.chunkTokens)
        window :: windows fuel (offset + utf8Length (text.take step)) (text.drop step)

def chunkText (text : String) : List Window :=
  if stripChars text.toList = [] then [] else c.windows text.toList.length 0 text.toList

end Chunker

theorem utf8Length_append (cs ds : List Char) :
    utf8Length (cs ++ ds) = utf8Length cs + utf8Length ds := by
  simp [utf8Length]

theorem length_le_utf8Length (cs : List Char) : cs.length ≤ utf8Length cs := by
  induction cs with
  | nil => simp [utf8Length]
  | cons c cs ih =>
    have some_byte := Char.utf8Size_pos c
    simp only [utf8Length, List.map_cons, List.sum_cons, List.length_cons] at ih ⊢
    omega

theorem utf8ByteSize_ofList (cs : List Char) : (String.ofList cs).utf8ByteSize = utf8Length cs := by
  induction cs with
  | nil => rfl
  | cons c cs ih =>
    have split : String.ofList (c :: cs) = String.singleton c ++ String.ofList cs := by
      apply String.toList_inj.mp
      simp
    rw [split, String.utf8ByteSize_append, ih, String.utf8ByteSize_singleton]
    simp [utf8Length]

namespace Chunker
variable {c : Chunker}

theorem shrunk_bounds {text : List Char} {fuel width : Nat} (enough : width ≤ fuel)
    (some_char : 0 < width) :
    0 < c.shrunk text fuel width ∧ c.shrunk text fuel width ≤ width ∧
      (c.shrunk text fuel width = 1 ∨ c.fits (text.take (c.shrunk text fuel width)) = true) := by
  induction fuel generalizing width with
  | zero => omega
  | succ fuel ih =>
    unfold shrunk
    split
    · rename_i stop
      rcases stop with one | fitting
      · exact ⟨some_char, le_refl _, Or.inl (by omega)⟩
      · exact ⟨some_char, le_refl _, Or.inr fitting⟩
    · rename_i wide
      have wider : ¬ width ≤ 1 := fun one => wide (Or.inl one)
      obtain ⟨positive, low, fitting⟩ := @ih (max 1 (width * 4 / 5)) (by omega) (by omega)
      exact ⟨positive, by omega, fitting⟩

/-- A window is cut out between two characters; it fits or is one character. -/
def Window.CutFrom (c : Chunker) (whole : List Char) (window : Window) : Prop :=
  ∃ before piece after, whole = before ++ piece ++ after ∧ piece ≠ [] ∧
    window = ⟨utf8Length before, utf8Length (before ++ piece), String.ofList piece⟩ ∧
    (c.fits piece = true ∨ piece.length = 1)

structure Leads (start finish : Nat) (windows : List Window) : Prop where
  first : windows.head?.map (·.utf8Start) = some start
  last : windows.getLast?.map (·.utf8End) = some finish
  chain : windows.IsChain fun one next => one.utf8Start < next.utf8Start ∧
    next.utf8Start ≤ one.utf8End

theorem windows_lead {fuel : Nat} {before text : List Char} (enough : text.length ≤ fuel)
    (some_text : text ≠ []) :
    (∀ window ∈ c.windows fuel (utf8Length before) text,
        Window.CutFrom c (before ++ text) window) ∧
      Leads (utf8Length before) (utf8Length (before ++ text))
        (c.windows fuel (utf8Length before) text) := by
  have length : 0 < text.length := List.length_pos_iff.mpr some_text
  induction fuel generalizing before text with
  | zero => omega
  | succ fuel ih =>
    unfold windows
    rw [if_neg some_text]
    have tokens := c.valid
    obtain ⟨positive, low, fitting⟩ := @shrunk_bounds c text text.length
      (min text.length (c.chunkTokens * 4)) (by omega) (by omega)
    generalize c.shrunk text text.length (min text.length (c.chunkTokens * 4)) = width at *
    dsimp only
    rw [← utf8Length_append]
    have taken : (text.take width).length = width := by
      rw [List.length_take]
      omega
    have cut : Window.CutFrom c (before ++ text) ⟨utf8Length before,
        utf8Length (before ++ text.take width), String.ofList (text.take width)⟩ := by
      refine ⟨before, text.take width, text.drop width, by simp, ?_, rfl, ?_⟩
      · intro none
        rw [none, List.length_nil] at taken
        omega
      · exact fitting.symm.imp_right fun one => taken.trans one
    split
    · rename_i whole
      rw [List.take_of_length_le whole] at cut ⊢
      exact ⟨by simpa using cut, rfl, rfl, .singleton _⟩
    · rename_i more
      generalize step_eq : max 1 (width * (c.chunkTokens - c.overlapTokens) / c.chunkTokens) = step
      have within : step ≤ width := by
        have share : width * (c.chunkTokens - c.overlapTokens) / c.chunkTokens ≤ width :=
          Nat.div_le_of_le_mul (by rw [Nat.mul_comm]; exact Nat.mul_le_mul_right _ (by omega))
        omega
      have advance : 0 < step := by omega
      rw [← utf8Length_append]
      obtain ⟨cuts, leads⟩ := @ih (before ++ text.take step) (text.drop step)
        (by rw [List.length_drop]; omega) (by simp; omega) (by rw [List.length_drop]; omega)
      rw [List.append_assoc, List.take_append_drop] at cuts leads
      have moved : utf8Length before < utf8Length (before ++ text.take step) ∧
          utf8Length (before ++ text.take step) ≤ utf8Length (before ++ text.take width) := by
        have bytes := length_le_utf8Length (text.take step)
        rw [List.length_take] at bytes
        rw [← Nat.sub_add_cancel within, Nat.add_comm, List.take_add]
        simp only [utf8Length_append]
        omega
      cases tail : c.windows fuel (utf8Length (before ++ text.take step)) (text.drop step) with
      | nil =>
        rw [tail] at leads
        cases leads.first
      | cons next rest =>
        rw [tail] at leads cuts
        have start : next.utf8Start = utf8Length (before ++ text.take step) :=
          Option.some.inj leads.first
        refine ⟨List.forall_mem_cons.mpr ⟨cut, cuts⟩, rfl, leads.last, .cons_cons ?_ leads.chain⟩
        rwa [start]

/-- The chunks of a text that is not blank lead from its first byte to its last. -/
theorem chunkText_covers (c : Chunker) (text : String) (visible : stripChars text.toList ≠ []) :
    (∀ window ∈ c.chunkText text, Window.CutFrom c text.toList window) ∧
      Leads 0 text.utf8ByteSize (c.chunkText text) := by
  have some_text : text.toList ≠ [] := fun none => visible (by rw [none]; rfl)
  have size : text.utf8ByteSize = utf8Length text.toList := by
    rw [← utf8ByteSize_ofList, String.ofList_toList]
  rw [chunkText, if_neg visible, size]
  exact @windows_lead c _ [] _ (le_refl _) some_text

theorem chunkText_covers_word :
    let c : Chunker := ⟨1, 0, String.length, by decide⟩
    Leads 0 ("abé".utf8ByteSize) (c.chunkText "abé") ∧ c.chunkText "abé" =
      [⟨0, 1, "a"⟩, ⟨1, 2, "b"⟩, ⟨2, 4, "é"⟩] :=
  ⟨(chunkText_covers ⟨1, 0, String.length, by decide⟩ "abé" (by decide +kernel)).2, by decide +kernel⟩

end Chunker

end SessionIndex
