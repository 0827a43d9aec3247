import EdgeProxy.Audit.Reopen
import Mathlib.Data.List.Chain

/-! # Tampering with stored segments

Bytes of a ledger are changed after they were written, and the lengths of the files stay. Where no
two of the frames involved collide, a chain that ends in the acknowledged hash is the chain that
was written, so a change that opening does not detect either ends in another hash or looks like a
frame that was never finished. The hash of a frame does not cover its length field: a larger length
in the last frame is enough for the second.
-/

namespace EdgeProxy

open Rust List

namespace FileAuditLedger

section Frames

/-- What the hash of a frame covers. -/
def covered (frame : Link × Bytes) : Bytes :=
  toBe 2 1 ++ toBe 8 frame.1.sequence ++ frame.1.previous ++ frame.2

def encodeFrames (stored : List (Link × Bytes)) : Bytes :=
  stored.flatMap fun frame => encodeFrame frame.1 frame.2

/-- The frames name each other, and `link` continues the last one. -/
structure Chained (stored : List (Link × Bytes)) (link : Link) : Prop where
  chain : stored.IsChain fun frame next => next.1 = frame.1.next frame.2
  fits : ∀ frame ∈ stored, frame.1.Fits
  tip : ∀ frame ∈ stored.getLast?, link = frame.1.next frame.2

/-- No two of the frames have one hash and differ in what it covers. -/
def CollisionFree (stored stored' : List (Link × Bytes)) : Prop :=
  ∀ frame ∈ stored, ∀ frame' ∈ stored',
    Sha256.digest (covered frame) = Sha256.digest (covered frame') → covered frame = covered frame'

instance (stored stored' : List (Link × Bytes)) : Decidable (CollisionFree stored stored') :=
  inferInstanceAs (Decidable (∀ frame ∈ stored, ∀ frame' ∈ stored', _ → _))

/-- The last hash that is stored. -/
def terminalHash (bytes : Bytes) : Bytes := bytes.drop (bytes.length - hashLen)

variable {stored stored' : List (Link × Bytes)} {link link' : Link}

theorem covered_injective {frame frame' : Link × Bytes} (hfits : frame.1.Fits)
    (hfits' : frame'.1.Fits) (h : covered frame = covered frame') : frame = frame' := by
  obtain ⟨hhead, hpayload⟩ := append_inj h (by simp [hfits.2, hfits'.2])
  obtain ⟨hsequences, hprevious⟩ := append_inj hhead (by simp)
  have hsequence := congrArg ofBe (append_inj_right hsequences rfl)
  rw [ofBe_toBe_of_lt (hfits.1.trans_eq (by decide)),
    ofBe_toBe_of_lt (hfits'.1.trans_eq (by decide))] at hsequence
  exact Prod.ext (Link.ext hsequence hprevious) hpayload

theorem chained_nil (link : Link) : Chained [] link := ⟨.nil, by simp, by simp⟩

theorem Chained.concat (h : Chained stored link) (hfits : link.Fits) (payload : Bytes) :
    Chained (stored ++ [(link, payload)]) (link.next payload) := by
  refine ⟨isChain_append.mpr ⟨h.chain, .singleton _, ?_⟩, ?_, by simp⟩
  · intro frame hframe next hnext
    obtain rfl := Option.mem_some.mp hnext
    exact h.tip frame hframe
  · intro frame hframe
    rcases mem_append.mp hframe with hold | hnew
    · exact h.fits frame hold
    · obtain rfl := mem_singleton.mp hnew
      exact hfits

theorem Chained.init {frame : Link × Bytes} (h : Chained (stored ++ [frame]) link) :
    Chained stored frame.1 ∧ link = frame.1.next frame.2 := by
  obtain ⟨hchain, _, htip⟩ := isChain_append.mp h.chain
  exact ⟨⟨hchain, fun old hold => h.fits old (mem_append_left _ hold),
    fun old hold => htip old hold frame rfl⟩, h.tip frame (by simp)⟩

@[simp] theorem encodeFrames_append (front back : List (Link × Bytes)) :
    encodeFrames (front ++ back) = encodeFrames front ++ encodeFrames back :=
  flatMap_append

theorem encodeFrames_singleton (frame : Link × Bytes) :
    encodeFrames [frame] = encodeFrame frame.1 frame.2 := by
  rw [encodeFrames, flatMap_cons, flatMap_nil, append_nil]

theorem length_encodeFrames (h : ∀ frame ∈ stored, frame.1.Fits) :
    (encodeFrames stored).length = (stored.map fun frame => frameBytes frame.2).sum := by
  induction stored with
  | nil => rfl
  | cons frame stored ih =>
    rw [forall_mem_cons] at h
    rw [encodeFrames, flatMap_cons, length_append, length_encodeFrame h.1, map_cons, sum_cons]
    exact congrArg _ (ih h.2)

@[simp] theorem encodeFrames_eq_nil_iff : encodeFrames stored = [] ↔ stored = [] := by
  cases stored with
  | nil => simp [encodeFrames]
  | cons => simp [encodeFrames, encodeFrame, frameHeader, frameMagic]

theorem terminalHash_encodeFrames (h : Chained stored link) (hne : stored ≠ []) :
    terminalHash (encodeFrames stored) = link.previous := by
  obtain ⟨front, frame, rfl⟩ := (eq_nil_or_concat' stored).resolve_left hne
  rw [h.init.2, encodeFrames_append, encodeFrames_singleton, encodeFrame, ← append_assoc,
    ← append_assoc, terminalHash, length_append, length_frameHash, hashLen, Nat.add_sub_cancel]
  exact drop_left

/-- A chain is known from its last hash and its length. -/
theorem Chained.eq_of_terminalHash (h : Chained stored link) (h' : Chained stored' link')
    (hfree : CollisionFree stored stored')
    (hlength : (encodeFrames stored).length = (encodeFrames stored').length)
    (hlast : terminalHash (encodeFrames stored) = terminalHash (encodeFrames stored')) :
    stored = stored' := by
  induction stored using reverseRecOn generalizing stored' link link' with
  | nil => exact (encodeFrames_eq_nil_iff.mp (eq_nil_of_length_eq_zero hlength.symm)).symm
  | append_singleton stored frame ih =>
    rcases eq_nil_or_concat' stored' with rfl | ⟨stored', frame', rfl⟩
    · exact encodeFrames_eq_nil_iff.mp (eq_nil_of_length_eq_zero hlength)
    -- The last frames have one hash, so they are one frame, and it names the hash before it.
    · rw [terminalHash_encodeFrames h (by simp), terminalHash_encodeFrames h' (by simp)] at hlast
      obtain ⟨hinit, rfl⟩ := h.init
      obtain ⟨hinit', rfl⟩ := h'.init
      obtain rfl : frame = frame' :=
        covered_injective (h.fits frame (by simp)) (h'.fits frame' (by simp))
          (hfree frame (by simp) frame' (by simp) hlast)
      rw [encodeFrames_append, encodeFrames_append, length_append, length_append,
        Nat.add_right_cancel_iff] at hlength
      have hbefore : CollisionFree stored stored' := fun old hold old' hold' =>
        hfree old (mem_append_left _ hold) old' (mem_append_left _ hold')
      rw [ih hinit hinit' hbefore hlength]
      by_cases hempty : stored = []
      · rw [hempty] at hlength ⊢
        rw [eq_nil_of_length_eq_zero hlength.symm]
        rfl
      · have hempty' : stored' ≠ [] := by
          rintro rfl
          exact hempty (encodeFrames_eq_nil_iff.mp (eq_nil_of_length_eq_zero hlength))
        rw [terminalHash_encodeFrames hinit hempty, terminalHash_encodeFrames hinit' hempty']

end Frames

variable {directory : Directory}

section Stored

variable {options : AuditLedgerOptions} {first number : ℕ} {state state' : ScanState}
  {stored : List (Link × Bytes)} {bytes : Bytes}

theorem Chained.linked {link : Link} {entries : List Entry} (h : Chained stored link)
    (hhash : link.previous.length = 32) (hsequences : link.sequence + entries.length ≤ 2 ^ 64) :
    Chained (stored ++ linkedFrames link entries) (linkAfter link entries) := by
  induction entries generalizing stored link with
  | nil => rwa [linkedFrames, append_nil]
  | cons entry entries ih =>
    rw [length_cons] at hsequences
    have hnext := ih (h.concat ⟨by omega, hhash⟩ entry.payload) (length_frameHash _ _)
      (by rw [sequence_next]; omega)
    rwa [append_assoc] at hnext

theorem encodeFrames_linkedFrames (link : Link) (entries : List Entry) :
    encodeFrames (linkedFrames link entries) = frames link entries := by
  induction entries generalizing link with
  | nil => rfl
  | cons _ _ ih => rw [frames, ← ih, linkedFrames, encodeFrames, encodeFrames, flatMap_cons]

/-- The scan has read the frames. -/
structure HasRead (state : ScanState) (stored : List (Link × Bytes)) : Prop where
  chained : Chained stored state.link
  records : state.records = [] → stored = []

theorem HasRead.frames {fuel : ℕ} (hread : HasRead state stored)
    (h : Frames options first number state bytes state') (hfuel : bytes.length ≤ fuel) :
    bytes = encodeFrames (framesIn fuel bytes) ∧
      HasRead state' (stored ++ framesIn fuel bytes) := by
  induction h generalizing stored fuel with
  | nil state =>
    have hnone : framesIn fuel [] = [] := by
      cases fuel with
      | zero => rfl
      | succ => rfl
    rw [hnone, append_nil]
    exact ⟨rfl, hread⟩
  | @cons state _ link payload rest record metadata haccepts _ ih =>
    have hlt := length_rest_lt haccepts.fits payload rest
    obtain ⟨fuel, rfl⟩ : ∃ n, fuel = n + 1 := ⟨fuel - 1, by omega⟩
    rw [framesIn_encodeFrame haccepts.fits haccepts.small]
    have hchained : Chained stored link := by
      rcases haccepts.meets with ⟨hfirst, _⟩ | hlink
      · rw [hread.records hfirst]
        exact chained_nil link
      · rw [hlink]
        exact hread.chained
    have hnext : HasRead ((state.anchored first link).push number payload record metadata)
        (stored ++ [(link, payload)]) := by
      refine ⟨?_, by simp [ScanState.push]⟩
      change Chained _ ((state.anchored first link).link.next payload)
      rw [haccepts.meets.link_anchored]
      exact hchained.concat haccepts.fits payload
    obtain ⟨hbytes, hrest⟩ := ih hnext (Nat.le_of_lt_succ (hlt.trans_le hfuel))
    rw [append_assoc] at hrest
    refine ⟨?_, hrest⟩
    rw [encodeFrames, flatMap_cons]
    exact congrArg _ hbytes

def contents (directory : Directory) : Bytes := directory.flatMap Prod.snd

@[simp] theorem contents_cons (file : ℕ × Bytes) (files : Directory) :
    contents (file :: files) = file.2 ++ contents files := flatMap_cons

theorem HasRead.files {final : ScanState} (hread : HasRead state stored)
    (h : SealedFiles options first state directory final) :
    contents directory = encodeFrames (storedFrames directory) ∧
      HasRead final (stored ++ storedFrames directory) := by
  induction h generalizing stored with
  | nil state =>
    rw [storedFrames, flatMap_nil, append_nil]
    exact ⟨rfl, hread⟩
  | @cons _ _ _ number bytes files hframes _ ih =>
    obtain ⟨hbytes, hnext⟩ := hread.frames hframes le_rfl
    obtain ⟨hfiles, hrest⟩ := ih hnext
    rw [append_assoc] at hrest
    refine ⟨?_, hrest⟩
    have hstored : storedFrames ((number, bytes) :: files) =
        framesIn bytes.length bytes ++ storedFrames files := flatMap_cons
    rw [hstored, encodeFrames_append, ← hbytes, ← hfiles, contents_cons]

theorem Sealed.chained (h : Sealed options directory) :
    contents directory = encodeFrames (storedFrames directory) ∧
      ∃ link, Chained (storedFrames directory) link := by
  obtain ⟨_, final, hsealed, _⟩ := h
  obtain ⟨hcontents, hread⟩ := HasRead.files ⟨chained_nil _, fun _ => rfl⟩ hsealed
  exact ⟨hcontents, _, hread.chained⟩

theorem contents_files (number : ℕ) (link : Link) (groups : List (List Entry)) :
    contents (files number link groups) = frames link groups.flatten := by
  induction groups generalizing number link with
  | nil => rfl
  | cons _ _ ih => rw [files, contents_cons, ih, flatten_cons, frames_append]

theorem History.chained (history : History) :
    contents history.directory = encodeFrames (storedFrames history.directory) ∧
      Chained (storedFrames history.directory) history.link := by
  have hchained := (chained_nil history.anchor).linked history.hash history.sequences
  rw [history.storedFrames_directory, encodeFrames_linkedFrames, history.directory_eq,
    contents_files, history.flatten_groups, history.link_eq]
  exact ⟨rfl, hchained⟩

end Stored

section Changed

/-- The segments with their lengths. -/
def shape (directory : Directory) : List (ℕ × ℕ) :=
  directory.map fun file => (file.1, file.2.length)

/-- The length fields of the frames of every segment. -/
def frameLengths (directory : Directory) : List (List ℕ) :=
  directory.map fun file => (framesIn file.2.length file.2).map fun frame => frame.2.length

theorem eq_of_shape {directory' : Directory} (hshape : shape directory = shape directory')
    (h : contents directory = contents directory') : directory = directory' := by
  induction directory generalizing directory' with
  | nil => exact (map_eq_nil_iff.mp hshape.symm).symm
  | cons file files ih =>
    rcases directory' with _ | ⟨file', files'⟩
    · cases hshape
    · obtain ⟨hfile, hfiles⟩ := cons.inj hshape
      obtain ⟨hnumber, hlength⟩ := Prod.mk.inj hfile
      rw [contents_cons, contents_cons] at h
      obtain ⟨hbytes, hrest⟩ := append_inj h hlength
      rw [ih hfiles hrest, Prod.ext hnumber hbytes]

theorem length_contents {directory' : Directory} (hshape : shape directory = shape directory') :
    (contents directory).length = (contents directory').length := by
  have hlengths := congrArg (fun sizes => (sizes.map Prod.snd).sum) hshape
  simpa [shape, contents, length_flatMap, Function.comp_def] using hlengths

/-- The directory is a chain of complete frames that ends in another hash. -/
def Resealed (options : AuditLedgerOptions) (directory directory' : Directory) : Prop :=
  Sealed options directory' ∧ terminalHash (contents directory') ≠ terminalHash (contents directory)

variable {options : AuditLedgerOptions} {store : LedgerStore} {directory : Directory}

/-- A changed chain that ends in the acknowledged hash holds a collision. -/
theorem Written.not_sealed (h : Written options store)
    (hshape : shape directory = shape store.directory) (hchanged : directory ≠ store.directory)
    (hfree : CollisionFree (storedFrames store.directory) (storedFrames directory))
    (hlast : terminalHash (contents directory) = terminalHash (contents store.directory)) :
    ¬ Sealed options directory := by
  intro hsealed
  obtain ⟨_, history, state, rfl⟩ := h.history
  obtain ⟨hcontents, hchained⟩ := history.chained
  obtain ⟨hcontents', _, hchained'⟩ := hsealed.chained
  change contents (history.store state).directory = _ at hcontents
  have hlength := length_contents hshape.symm
  rw [hcontents, hcontents'] at hlength hlast
  have hstored := hchained.eq_of_terminalHash hchained' hfree hlength hlast.symm
  apply hchanged
  apply eq_of_shape hshape
  rw [hcontents, hcontents']
  exact congrArg encodeFrames hstored.symm

/-- The frames found before an unfinished one do not fill the segment. -/
theorem length_framesIn_incomplete {first number fuel : ℕ} {state final : ScanState}
    {front left : Bytes} (h : Frames options first number state front final) (hleft : left ≠ [])
    (hend : final.Incomplete options first left) (hfuel : (front ++ left).length ≤ fuel) :
    ((framesIn fuel (front ++ left)).map fun frame => frameBytes frame.2).sum ≠
      (front ++ left).length := by
  have hpos := length_pos_iff.mpr hleft
  rw [length_append] at hfuel
  obtain ⟨fuel, rfl⟩ : ∃ n, fuel = n + 1 := ⟨fuel - 1, by omega⟩
  induction h generalizing fuel with
  | nil state =>
    rw [nil_append, framesIn, if_neg hleft]
    rcases hend with hshort | ⟨length, link, rest, rfl, hfits, hlength, _, _, _, _, hpast⟩
    · simp only [map_cons, sum_cons, frameBytes]
      omega
    · simp only [readHeader_frameHeader hlength hfits, drop_left' (length_frameHeader _ hfits),
        map_cons, sum_cons, frameBytes, length_append, length_frameHeader _ hfits, length_take,
        hashLen] at hpast ⊢
      omega
  | @cons _ _ link payload rest _ _ haccepts _ ih =>
    have hlt := length_rest_lt haccepts.fits payload rest
    obtain ⟨fuel, rfl⟩ : ∃ n, fuel = n + 1 := ⟨fuel - 1, by omega⟩
    have hrest := ih hend fuel (by omega)
    rw [append_assoc, framesIn_encodeFrame haccepts.fits haccepts.small, map_cons, sum_cons,
      length_append, length_encodeFrame haccepts.fits]
    exact fun heq => hrest (Nat.add_left_cancel heq)

theorem length_framesIn_files {number : ℕ} {link : Link} {groups : List (List Entry)}
    (hhash : link.previous.length = 32)
    (hsequences : link.sequence + groups.flatten.length ≤ 2 ^ 64) :
    ∀ file ∈ files number link groups,
      ((framesIn file.2.length file.2).map fun frame => frameBytes frame.2).sum =
        file.2.length := by
  induction groups generalizing number link with
  | nil => simp [files]
  | cons entries groups ih =>
    rw [flatten_cons, length_append] at hsequences
    rw [files, forall_mem_cons]
    refine ⟨?_, ih (length_previous_linkAfter hhash entries) (by rw [sequence_linkAfter]; omega)⟩
    have hchained : Chained (linkedFrames link entries) (linkAfter link entries) :=
      (chained_nil link).linked hhash (by omega)
    rw [framesIn_frames hhash (by omega) le_rfl]
    change _ = (frames link entries).length
    rw [← encodeFrames_linkedFrames, length_encodeFrames hchained.fits]

theorem History.length_framesIn (history : History) : ∀ file ∈ history.directory,
    ((framesIn file.2.length file.2).map fun frame => frameBytes frame.2).sum = file.2.length := by
  have hsequences := history.sequences
  rw [← History.entries, ← History.flatten_groups] at hsequences
  rw [History.directory_eq]
  exact length_framesIn_files history.hash hsequences

theorem Written.not_torn (h : Written options store)
    (hshape : shape directory = shape store.directory)
    (hlengths : frameLengths directory = frameLengths store.directory) :
    ¬ Torn options directory := by
  rintro ⟨_, _, before, number, front, left, middle, final, hfiles, _, hleft, _, hfront, hend⟩
  obtain ⟨_, history, state, rfl⟩ := h.history
  have hboth := congrArg₂ List.zip hshape hlengths
  rw [shape, shape, frameLengths, frameLengths, zip_map', zip_map'] at hboth
  have hlast : (number, front ++ left) ∈ directory := by simp [hfiles]
  obtain ⟨file, hfile, heq⟩ := mem_map.mp (hboth ▸ mem_map_of_mem hlast)
  obtain ⟨hsize, hframes⟩ := Prod.mk.inj heq
  have hfilled := history.length_framesIn file hfile
  apply length_framesIn_incomplete hfront hleft hend le_rfl
  have hsum := congrArg (fun lengths => (lengths.map fun n => headerLen + n + hashLen).sum) hframes
  simp only [map_map] at hsum
  exact hsum.symm.trans (hfilled.trans (Prod.mk.inj hsize).2)

/-- A change is detected unless it goes on to another last hash or makes the last frame look
unfinished; where the length fields and the last hash are left it is always detected. -/
theorem tampering_detected_iff {options : AuditLedgerOptions} {store : LedgerStore}
    (h : Written options store) (hcontext : options.recoveryContext.isSome)
    (hshape : shape directory = shape store.directory) (hchanged : directory ≠ store.directory)
    (hfree : CollisionFree (storedFrames store.directory) (storedFrames directory)) :
    (Detects options directory ↔ ¬ Resealed options store.directory directory ∧
      ¬ Torn options directory) ∧
    (frameLengths directory = frameLengths store.directory →
      terminalHash (contents directory) = terminalHash (contents store.directory) →
      Detects options directory) := by
  have hdetects := detects_iff h.history.1 hcontext directory
  constructor
  · rw [hdetects]
    refine and_congr_left fun _ => not_congr ⟨fun hsealed => ⟨hsealed, fun hlast => ?_⟩, And.left⟩
    exact h.not_sealed hshape hchanged hfree hlast hsealed
  · intro hlengths hlast
    exact hdetects.mpr ⟨h.not_sealed hshape hchanged hfree hlast, h.not_torn hshape hlengths⟩

/-- In every segment the byte at the index is changed. -/
def raised (index : ℕ) (directory : Directory) : Directory :=
  directory.map fun file => (file.1, file.2.modify index (· + 1))

theorem shape_raised (index : ℕ) (directory : Directory) :
    shape (raised index directory) = shape directory := by
  simp [shape, raised, Function.comp_def]

theorem written_logout : Written recoveringOptions (logouts recoveringOptions 1) :=
  written_logouts (by decide +kernel) (by decide +kernel)

/-- A byte of the payload is changed. -/
theorem raised_payload_detected :
    Detects recoveringOptions (raised 60 (logouts recoveringOptions 1).directory) := by
  obtain ⟨hchanged, hfree, hlengths, hlast⟩ :
      raised 60 (logouts recoveringOptions 1).directory ≠ (logouts recoveringOptions 1).directory ∧
      CollisionFree (storedFrames (logouts recoveringOptions 1).directory)
        (storedFrames (raised 60 (logouts recoveringOptions 1).directory)) ∧
      frameLengths (raised 60 (logouts recoveringOptions 1).directory) =
        frameLengths (logouts recoveringOptions 1).directory ∧
      terminalHash (contents (raised 60 (logouts recoveringOptions 1).directory)) =
        terminalHash (contents (logouts recoveringOptions 1).directory) := by decide +kernel
  exact (tampering_detected_iff written_logout rfl (shape_raised _ _) hchanged hfree).2 hlengths
    hlast

/-- The record was appended and acknowledged. After its length field was changed, the ledger opens
and the frame is cut off. -/
theorem raised_length_discards_record :
    Written recoveringOptions (logouts recoveringOptions 1) ∧
      shape (raised 15 (logouts recoveringOptions 1).directory) =
        shape (logouts recoveringOptions 1).directory ∧
      raised 15 (logouts recoveringOptions 1).directory ≠ (logouts recoveringOptions 1).directory ∧
      CollisionFree (storedFrames (logouts recoveringOptions 1).directory)
        (storedFrames (raised 15 (logouts recoveringOptions 1).directory)) ∧
      (openLedger recoveringOptions
        (raised 15 (logouts recoveringOptions 1).directory)).1.isOk = true ∧
      ¬ Unshortened (raised 15 (logouts recoveringOptions 1).directory)
        (openLedger recoveringOptions (raised 15 (logouts recoveringOptions 1).directory)).2 :=
  ⟨written_logout, shape_raised _ _, by decide +kernel⟩

end Changed

end FileAuditLedger

end EdgeProxy
