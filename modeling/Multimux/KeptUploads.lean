/-
This file proves what uploads and sweeps leave in their directory. A name tells
the second in which its upload took the stamp, so no upload that is prompt can
take a name that some sweep has condemned. Hence an uploaded image stays whole
for its time although a sweep looks before it removes, a sweep that met no error
leaves nothing older, and what is not the daemon's is never touched.
-/

import Multimux.Uploads

namespace Multimux

/-! ### The stamp in a name -/

theorem length_compactText (date : Nat × Nat × Nat) (clock : Nat) :
    (compactText date clock).length = 15 := by
  simp only [compactText, List.length_append, List.length_cons, length_padded]

theorem padded_append_inj {width first second : Nat} {rest others : List Char}
    (same : padded width first ++ rest = padded width second ++ others) :
    padded width first = padded width second ∧ rest = others :=
  List.append_inj same (by rw [length_padded, length_padded])

/-- The compact text says what the long one says. -/
theorem dateTimeText_of_compactText {seconds others : Nat}
    (same : compactText (dateOf (seconds / 86400)) (seconds % 86400) =
      compactText (dateOf (others / 86400)) (others % 86400)) :
    dateTimeText seconds = dateTimeText others := by
  unfold dateTimeText dateText clockText
  generalize dateOf (seconds / 86400) = date at same ⊢
  generalize dateOf (others / 86400) = other at same ⊢
  generalize seconds % 86400 = clock at same ⊢
  generalize others % 86400 = later at same ⊢
  obtain ⟨year, rest⟩ := padded_append_inj same
  obtain ⟨month, rest⟩ := padded_append_inj rest
  obtain ⟨day, rest⟩ := padded_append_inj rest
  obtain ⟨hour, rest⟩ := padded_append_inj (List.cons.inj rest).2
  obtain ⟨minute, second⟩ := padded_append_inj rest
  rw [year, month, day, hour, minute, second]

theorem dateTimeText_inj {seconds others : Nat} (era : seconds / 86400 < eraDays)
    (otherEra : others / 86400 < eraDays) (same : dateTimeText seconds = dateTimeText others) :
    seconds = others := by
  have before := @sortsBefore_dateTimeText_append _ _ [] [] era otherEra
  have after := @sortsBefore_dateTimeText_append _ _ [] [] otherEra era
  rw [same] at before
  rw [same] at after
  have first := before.1 (sortsBefore_refl _)
  have last := after.1 (sortsBefore_refl _)
  omega

theorem length_stampText (instant : Nat) : (stampText instant).length = 15 :=
  length_compactText _ _

/-- The stamp is the text of its second. -/
theorem stampText_inj {instant other : Nat} (era : InEra instant) (otherEra : InEra other)
    (same : stampText instant = stampText other) : instant / nanos = other / nanos :=
  Nat.add_right_cancel (dateTimeText_inj era otherEra (dateTimeText_of_compactText same))

theorem pasteName_stamp {stamped other : Nat} {random others extension otherExtension : List Char}
    (era : InEra stamped) (otherEra : InEra other)
    (same : pasteName stamped random extension = pasteName other others otherExtension) :
    stamped / nanos = other / nanos := by
  have rest := List.append_cancel_left same
  refine stampText_inj era otherEra (List.append_inj rest ?_).1
  rw [length_stampText, length_stampText]

/-- If the name has a stamp, it is of no later second than this instant. -/
def StampedBy (name : List Char) (instant : Nat) : Prop :=
  ∀ stamped random extension, InEra stamped → name = pasteName stamped random extension →
    stamped / nanos * nanos ≤ instant

theorem stampedBy_pasteName {stamped instant : Nat} {random extension : List Char}
    (era : InEra stamped) (order : stamped ≤ instant) :
    StampedBy (pasteName stamped random extension) instant := by
  intro other others otherExtension otherEra same
  rw [← pasteName_stamp era otherEra same]
  exact (Nat.div_mul_le_self stamped nanos).trans order

theorem pastePrefix_pasteName (stamped : Nat) (random extension : List Char) :
    pastePrefix.isPrefixOf (pasteName stamped random extension) = true :=
  List.isPrefixOf_iff_prefix.2 (List.prefix_append _ _)

/-- The name is the daemon's, and every upload that could have it is too old for the prompt. -/
def ExpiredName (name : List Char) (now : Nat) : Prop :=
  pastePrefix.isPrefixOf name = true ∧ ∃ instant, StampedBy name instant ∧ instant + uploadTTL ≤ now

theorem ExpiredName.mono {name : List Char} {now later : Nat} (order : now ≤ later)
    (expired : ExpiredName name now) : ExpiredName name later :=
  ⟨expired.1, expired.2.imp fun _ about => ⟨about.1, about.2.trans order⟩⟩

/-- A prompt upload takes no such name. -/
theorem not_expired_of_prompt {stamped now : Nat} {random extension : List Char}
    (era : InEra stamped) (prompt : now + nanos < stamped + uploadTTL) :
    ¬ ExpiredName (pasteName stamped random extension) now := by
  rintro ⟨-, instant, stampedBy, old⟩
  have second := stampedBy stamped random extension era rfl
  have rounds := Nat.div_add_mod' stamped nanos
  have below := Nat.mod_lt stamped (show nanos > 0 by decide)
  omega

/-! ### What the directory keeps -/

/-- The bytes are of the type that the extension tells. -/
def Fits (data : Bytes) (extension : List Char) : Prop :=
  uploadExt.lookup (detectImage data) = some extension ∧ data.length ≤ maxUploadBytes

namespace UploadWorld

/-- The file is whole, or it is gone and its time is over. -/
def Keeps (world : UploadWorld) (name : List Char) (written : Nat) (content : Bytes) : Prop :=
  ⟨name, true, written, content⟩ ∈ world.entries ∨
    written + uploadTTL ≤ world.now ∧ ∀ entry ∈ world.entries, entry.name ≠ name

/-- A file that an upload made. -/
structure Made (world : UploadWorld) (name : List Char) (written : Nat) (content : Bytes) :
    Prop where
  own : pastePrefix.isPrefixOf name = true
  stampedBy : StampedBy name written
  past : written ≤ world.now
  keeps : world.Keeps name written content

/-- A file that its upload still holds. -/
structure Holds (world : UploadWorld) (name : List Char) (written : Nat) (content : Bytes) : Prop
    extends world.Made name written content where
  unsaved : ∀ image ∈ world.saved, image.name ≠ name

/-- A sweep may remove what has this name: it is the daemon's, and a file. -/
def Sweepable (world : UploadWorld) (name : List Char) : Prop :=
  pastePrefix.isPrefixOf name = true ∧ ∀ entry ∈ world.entries, entry.name = name → entry.regular

/-- What is old at the instant has one of these names. -/
def Covered (world : UploadWorld) (asOf : Nat) (left : List (List Char)) : Prop :=
  ∀ entry ∈ world.entries, entry.isPaste → entry.modTime + uploadTTL ≤ asOf → entry.name ∈ left

/-- What holds of the directory and of the images that were answered for. -/
structure Sound (world : UploadWorld) (strays : List DirEntry) : Prop where
  names : (world.entries.map DirEntry.name).Nodup
  era : InEra world.now
  stamped : ∀ entry ∈ world.entries, entry.isPaste → StampedBy entry.name entry.modTime
  saved : ∀ image ∈ world.saved, world.Made image.name image.written image.content ∧
    ∃ stamped random extension, image.name = pasteName stamped random extension ∧
      Fits image.content extension
  strays : ∀ entry ∈ strays, entry ∈ world.entries ∧ entry.isPaste = false

end UploadWorld

/-- The file that an upload holds. -/
def UploadProc.held : UploadProc → Option (List Char)
  | .writing _ name _ _ | .closing _ name _ _ _ | .undoing _ name _ => some name
  | _ => none

section Uploads

variable (uploadDir : List Char)

/-- What an upload or a sweep may rely on. -/
def UploadProc.Stands (world : UploadWorld) : UploadProc → Prop
  | .making data extension | .stamping data extension => Fits data extension
  | .creating stamped data extension => Fits data extension ∧ InEra stamped ∧ stamped ≤ world.now
  | .writing stamped name data created => world.Holds name created [] ∧ InEra stamped ∧
      stamped ≤ created ∧ ∃ random extension, name = pasteName stamped random extension ∧
        Fits data extension
  | .closing _ name content written whole => world.Holds name written content ∧
      (whole → ∃ stamped random extension, name = pasteName stamped random extension ∧
        Fits content extension)
  | .undoing _ name written => ∃ content, world.Holds name written content
  | .answered _ answer => ∀ path, answer = some path →
      ∃ image ∈ world.saved, path = uploadDir ++ '/' :: image.name
  | .listing asOf => asOf ≤ world.now
  | .looking asOf left clean => asOf ≤ world.now ∧ (∀ name ∈ left, world.Sweepable name) ∧
      (clean → world.Covered asOf left)
  | .removing asOf name left clean => asOf ≤ world.now ∧
      (∀ name' ∈ name :: left, world.Sweepable name') ∧
      (clean → world.Covered asOf (name :: left)) ∧ ExpiredName name asOf ∧
      ∀ entry ∈ world.entries, entry.name = name → entry.modTime + uploadTTL ≤ asOf
  | .swept asOf clean => asOf ≤ world.now ∧ (clean → world.Covered asOf [])
  | _ => True

/-- No two uploads hold one file. -/
def uploadOutline (strays : List DirEntry) : Outline UploadWorld UploadProc where
  shared world := world.Sound strays
  here world proc := proc.Stands uploadDir world
  apart one other := ∀ name, one.held = some name → other.held ≠ some name

/-! ### What a step does to the others -/

/-- A step puts only an entry of its own name, removes nothing else but what is old, and saves
only its own file. -/
structure UploadWorld.Changes (world after : UploadWorld) (own : Option (List Char)) : Prop where
  now : after.now = world.now
  grows : world.saved ⊆ after.saved
  saved : ∀ image ∈ after.saved, image ∈ world.saved ∨ own = some image.name
  news : ∀ entry ∈ after.entries, entry ∈ world.entries ∨ own = some entry.name ∧
    entry.regular = true ∧ entry.modTime = world.now ∧ StampedBy entry.name world.now ∧
    ¬ ExpiredName entry.name world.now
  stays : ∀ entry ∈ world.entries, own ≠ some entry.name → entry ∈ after.entries ∨
    entry.modTime + uploadTTL ≤ world.now ∧ ∀ other ∈ after.entries, other.name ≠ entry.name
  strays : ∀ entry ∈ world.entries, entry.isPaste = false → entry ∈ after.entries

theorem UploadWorld.Changes.refl (world : UploadWorld) (own : Option (List Char)) :
    world.Changes world own where
  now := rfl
  grows _ member := member
  saved _ member := .inl member
  news _ member := .inl member
  stays _ member _ := .inl member
  strays _ member _ := member

section Changes

variable {world after : UploadWorld} {own : Option (List Char)} {name : List Char}
  {written : Nat} {content : Bytes}

theorem UploadWorld.Changes.keeps (changes : world.Changes after own) (different : own ≠ some name)
    (keeps : world.Keeps name written content) : after.Keeps name written content := by
  rcases keeps with present | ⟨old, gone⟩
  · rcases changes.stays _ present different with still | ⟨old, gone⟩
    · exact .inl still
    · exact .inr ⟨changes.now ▸ old, gone⟩
  · refine .inr ⟨changes.now ▸ old, fun entry member same => ?_⟩
    rcases changes.news entry member with before | ⟨mine, -⟩
    · exact gone entry before same
    · exact different (same ▸ mine)

theorem UploadWorld.Changes.made (changes : world.Changes after own) (different : own ≠ some name)
    (made : world.Made name written content) : after.Made name written content where
  own := made.own
  stampedBy := made.stampedBy
  past := changes.now ▸ made.past
  keeps := changes.keeps different made.keeps

theorem UploadWorld.Changes.holds (changes : world.Changes after own) (different : own ≠ some name)
    (holds : world.Holds name written content) : after.Holds name written content where
  toMade := changes.made different holds.toMade
  unsaved image member same := by
    rcases changes.saved image member with before | mine
    · exact holds.unsaved image before same
    · exact different (same ▸ mine)

theorem UploadWorld.Changes.sweepable (changes : world.Changes after own)
    (sweepable : world.Sweepable name) : after.Sweepable name := by
  refine ⟨sweepable.1, fun entry member same => ?_⟩
  rcases changes.news entry member with before | ⟨-, regular, -⟩
  · exact sweepable.2 entry before same
  · exact regular

theorem UploadWorld.Changes.covered (changes : world.Changes after own) {asOf : Nat}
    {left : List (List Char)} (past : asOf ≤ world.now) (covered : world.Covered asOf left) :
    after.Covered asOf left := by
  intro entry member paste old
  rcases changes.news entry member with before | ⟨-, -, new, -⟩
  · exact covered entry before paste old
  · have lasts : 0 < uploadTTL := by decide
    omega

/-- A step of another leaves what an upload or a sweep relies on. -/
theorem UploadWorld.Changes.stands (changes : world.Changes after own) {proc : UploadProc}
    (different : ∀ name, proc.held = some name → own ≠ some name)
    (stands : proc.Stands uploadDir world) : proc.Stands uploadDir after := by
  cases proc with
  | making | stamping => exact stands
  | creating => exact ⟨stands.1, stands.2.1, changes.now ▸ stands.2.2⟩
  | writing => exact ⟨changes.holds (different _ rfl) stands.1, stands.2⟩
  | closing => exact ⟨changes.holds (different _ rfl) stands.1, stands.2⟩
  | undoing => exact stands.imp fun _ holds => changes.holds (different _ rfl) holds
  | answered =>
    intro path answer
    obtain ⟨image, member, same⟩ := stands path answer
    exact ⟨image, changes.grows member, same⟩
  | listing => exact le_of_le_of_eq stands changes.now.symm
  | looking =>
    obtain ⟨past, sweepable, covered⟩ := stands
    exact ⟨changes.now ▸ past, fun name member => changes.sweepable (sweepable name member),
      fun clean => changes.covered past (covered clean)⟩
  | removing asOf name left clean =>
    obtain ⟨past, sweepable, covered, expired, old⟩ := stands
    refine ⟨changes.now ▸ past, fun name member => changes.sweepable (sweepable name member),
      fun clean => changes.covered past (covered clean), expired, fun entry member same => ?_⟩
    rcases changes.news entry member with before | ⟨-, -, -, -, fresh⟩
    · exact old entry before same
    · exact absurd (same ▸ expired.mono past) fresh
  | swept =>
    exact ⟨changes.now ▸ stands.1, fun clean => changes.covered stands.1 (stands.2 clean)⟩
  | reading | sampling => trivial

theorem UploadWorld.Changes.sound (changes : world.Changes after own) {strays : List DirEntry}
    (sound : world.Sound strays) (names : (after.entries.map DirEntry.name).Nodup)
    (apart : ∀ image ∈ world.saved, own ≠ some image.name)
    (saved : ∀ image ∈ after.saved, image ∈ world.saved ∨
      after.Made image.name image.written image.content ∧
        ∃ stamped random extension, image.name = pasteName stamped random extension ∧
          Fits image.content extension) : after.Sound strays where
  names := names
  era := changes.now ▸ sound.era
  stamped entry member paste := by
    rcases changes.news entry member with before | ⟨-, -, new, stamped, -⟩
    · exact sound.stamped entry before paste
    · exact new ▸ stamped
  saved image member := by
    rcases saved image member with before | new
    · exact ⟨changes.made (apart image before) (sound.saved image before).1,
        (sound.saved image before).2⟩
    · exact new
  strays entry member := by
    obtain ⟨present, stray⟩ := sound.strays entry member
    exact ⟨changes.strays entry present stray, stray⟩

end Changes

/-! ### What a call changes -/

section Calls

variable {world : UploadWorld} {strays : List DirEntry} {name : List Char} {content : Bytes}

theorem UploadWorld.find_eq_none (absent : world.find name = none) :
    ∀ entry ∈ world.entries, entry.name ≠ name := by
  intro entry member same
  have differs := List.find?_eq_none.1 absent entry member
  exact differs (decide_eq_true same)

theorem UploadWorld.find_eq_some {entry : DirEntry} (found : world.find name = some entry) :
    entry ∈ world.entries ∧ entry.name = name := by
  unfold find at found
  have named := List.find?_some found
  exact ⟨List.mem_of_find?_eq_some found, of_decide_eq_true named⟩

theorem UploadWorld.Made.sweepable {written : Nat} (made : world.Made name written content)
    (sound : world.Sound strays) : world.Sweepable name := by
  refine ⟨made.own, fun entry member same => ?_⟩
  rcases made.keeps with present | ⟨-, gone⟩
  · rw [List.inj_on_of_nodup_map sound.names member present same]
  · exact absurd same (gone entry member)

theorem DirEntry.isPaste_of {entry : DirEntry} (regular : entry.regular = true)
    (own : pastePrefix.isPrefixOf entry.name = true) : entry.isPaste = true := by
  rw [DirEntry.isPaste, regular, own, Bool.and_self]

theorem UploadWorld.changes_create (stampedBy : StampedBy name world.now)
    (fresh : ¬ ExpiredName name world.now) :
    world.Changes (world.create name) (some name) where
  now := rfl
  grows _ member := member
  saved _ member := .inl member
  news entry member := by
    rcases List.mem_append.1 member with before | new
    · exact .inl before
    · cases List.mem_singleton.1 new
      exact .inr ⟨rfl, rfl, rfl, stampedBy, fresh⟩
  stays _ member _ := .inl (List.mem_append_left _ member)
  strays _ member _ := List.mem_append_left _ member

theorem UploadWorld.nodup_create (sound : world.Sound strays) (absent : world.find name = none) :
    ((world.create name).entries.map DirEntry.name).Nodup := by
  show ((world.entries ++ [_]).map DirEntry.name).Nodup
  rw [List.map_append, List.nodup_append]
  refine ⟨sound.names, List.nodup_singleton _, fun first old second new same => ?_⟩
  obtain ⟨entry, member, rfl⟩ := List.mem_map.1 old
  exact find_eq_none absent entry member (same.trans (List.mem_singleton.1 new))

theorem UploadWorld.mem_write {entry : DirEntry} : entry ∈ (world.write name content).entries ↔
    (entry ∈ world.entries ∧ entry.name ≠ name) ∨ ∃ old ∈ world.entries, old.name = name ∧
      entry = { old with modTime := world.now, content } := by
  constructor
  · intro member
    obtain ⟨old, present, rfl⟩ := List.mem_map.1 member
    by_cases same : old.name = name
    · rw [if_pos same]
      exact .inr ⟨old, present, same, rfl⟩
    · rw [if_neg same]
      exact .inl ⟨present, same⟩
  · rintro (⟨present, other⟩ | ⟨old, present, same, rfl⟩)
    · exact List.mem_map.2 ⟨entry, present, if_neg other⟩
    · exact List.mem_map.2 ⟨old, present, if_pos same⟩

theorem UploadWorld.changes_write (sweepable : world.Sweepable name)
    (stampedBy : StampedBy name world.now) (fresh : ¬ ExpiredName name world.now) :
    world.Changes (world.write name content) (some name) where
  now := rfl
  grows _ member := member
  saved _ member := .inl member
  news entry member := by
    rcases mem_write.1 member with ⟨before, -⟩ | ⟨old, present, same, rfl⟩
    · exact .inl before
    · exact .inr ⟨congrArg some same.symm, sweepable.2 old present same, rfl, same ▸ stampedBy,
        same ▸ fresh⟩
  stays entry member other :=
    .inl (mem_write.2 (.inl ⟨member, fun same => other (congrArg some same.symm)⟩))
  strays entry member stray := by
    refine mem_write.2 (.inl ⟨member, fun same => ?_⟩)
    have paste := DirEntry.isPaste_of (sweepable.2 entry member same) (same ▸ sweepable.1)
    exact absurd (stray.symm.trans paste) Bool.false_ne_true

theorem UploadWorld.names_write :
    (world.write name content).entries.map DirEntry.name = world.entries.map DirEntry.name := by
  show (world.entries.map _).map DirEntry.name = _
  rw [List.map_map]
  refine List.map_congr_left fun entry _ => ?_
  show DirEntry.name (if entry.name = name then _ else entry) = entry.name
  split <;> rfl

theorem UploadWorld.mem_remove {entry : DirEntry} :
    entry ∈ (world.remove name).entries ↔ entry ∈ world.entries ∧ entry.name ≠ name := by
  show entry ∈ world.entries.filter _ ↔ _
  rw [List.mem_filter, decide_eq_true_iff]

/-- A file is removed by its own upload, or when it is old. -/
theorem UploadWorld.changes_remove {own : Option (List Char)} (sweepable : world.Sweepable name)
    (due : own = some name ∨
      ∀ entry ∈ world.entries, entry.name = name → entry.modTime + uploadTTL ≤ world.now) :
    world.Changes (world.remove name) own where
  now := rfl
  grows _ member := member
  saved _ member := .inl member
  news entry member := .inl (mem_remove.1 member).1
  stays entry member other := by
    by_cases same : entry.name = name
    · refine .inr ⟨?_, fun left still => ?_⟩
      · exact due.elim (fun mine => absurd (mine.trans (congrArg some same.symm)) other)
          fun old => old entry member same
      · exact same ▸ (mem_remove.1 still).2
    · exact .inl (mem_remove.2 ⟨member, same⟩)
  strays entry member stray := by
    refine mem_remove.2 ⟨member, fun same => ?_⟩
    have paste := DirEntry.isPaste_of (sweepable.2 entry member same) (same ▸ sweepable.1)
    exact absurd (stray.symm.trans paste) Bool.false_ne_true

theorem UploadWorld.nodup_remove (sound : world.Sound strays) :
    ((world.remove name).entries.map DirEntry.name).Nodup :=
  sound.names.sublist (List.filter_sublist.map _)

end Calls

/-! ### Steps -/

/-- An upload writes less than its time after its stamp. -/
def UploadProc.Prompt (world : UploadWorld) : UploadProc → Prop
  | .creating stamped _ _ | .writing stamped _ _ _ => world.now + nanos < stamped + uploadTTL
  | _ => True

instance UploadProc.Prompt.decidable (world : UploadWorld) (proc : UploadProc) :
    Decidable (proc.Prompt world) := by
  unfold UploadProc.Prompt
  split <;> infer_instance

variable {uploadDir} {pool : Pool UploadWorld UploadProc} {index : Nat} {proc next : UploadProc}
  {after : UploadWorld} {strays : List DirEntry}

/-- A step that changes no more than this disturbs no other. -/
theorem UploadWorld.Changes.kept {own : Option (List Char)}
    (changes : pool.world.Changes after own) (holds : (uploadOutline uploadDir strays).Holds pool)
    (shared : after.Sound strays) (here : next.Stands uploadDir after)
    (mine : ∀ name, next.held = some name → own = some name)
    (separate : ∀ other bystander, other ≠ index → pool.procs[other]? = some bystander →
      ∀ name, bystander.held = some name → own ≠ some name) :
    (uploadOutline uploadDir strays).Kept pool index after next where
  shared := shared
  here := here
  others other bystander different there :=
    ⟨changes.stands uploadDir (separate other bystander different there)
        (holds.here other bystander there),
      fun name held theirs => separate other bystander different there name theirs (mine name held),
      fun name theirs held => separate other bystander different there name theirs (mine name held)⟩

/-- The file that a process holds is nobody else's. -/
theorem UploadWorld.Changes.keptOwn (changes : pool.world.Changes after proc.held)
    (holds : (uploadOutline uploadDir strays).Holds pool)
    (present : pool.procs[index]? = some proc) (shared : after.Sound strays)
    (here : next.Stands uploadDir after)
    (mine : ∀ name, next.held = some name → proc.held = some name) :
    (uploadOutline uploadDir strays).Kept pool index after next := by
  refine changes.kept holds shared here mine
    fun other bystander different there name theirs held => ?_
  exact holds.apart index other proc bystander (Ne.symm different) present there name held theirs

/-- A step that leaves the world as it is. -/
theorem uploadOutline_quiet (holds : (uploadOutline uploadDir strays).Holds pool)
    (present : pool.procs[index]? = some proc) (here : next.Stands uploadDir pool.world)
    (mine : ∀ name, next.held = some name → proc.held = some name) :
    (uploadOutline uploadDir strays).Kept pool index pool.world next :=
  (UploadWorld.Changes.refl pool.world proc.held).keptOwn holds present holds.shared here mine

theorem uploadError_stands (world : UploadWorld) (status : Nat) (error : String) :
    (uploadError status error).Stands uploadDir world :=
  fun _ answer => nomatch answer

/-- The request is judged by what it declares and by its bytes. -/
theorem uploadOutline_reading {request : UploadRequest} {choice : UploadChoice}
    (holds : (uploadOutline uploadDir strays).Holds pool)
    (present : pool.procs[index]? = some (.reading request))
    (stepped : handleUpload uploadDir pool.world (.reading request) choice = some (after, next)) :
    (uploadOutline uploadDir strays).Kept pool index after next := by
  have refused : ∀ status error, (uploadOutline uploadDir strays).Kept pool index pool.world
      (uploadError status error) := fun status error =>
    uploadOutline_quiet holds present (uploadError_stands pool.world status error)
      fun name held => nomatch held
  obtain ⟨rfl, rfl⟩ := Prod.mk.inj (Option.some.inj stepped)
  split
  · exact refused _ _
  · split
    · exact refused _ _
    · split
      · exact refused _ _
      · rename_i small
        split
        · exact refused _ _
        · split
          · exact refused _ _
          · rename_i extension found
            exact uploadOutline_quiet holds present ⟨found, Nat.le_of_not_lt small⟩
              fun name held => nomatch held

/-- No other upload holds a file of this name, and none was saved under it. -/
theorem uploadOutline_free {name : List Char} (holds : (uploadOutline uploadDir strays).Holds pool)
    (absent : pool.world.find name = none) (fresh : ¬ ExpiredName name pool.world.now) :
    (∀ image ∈ pool.world.saved, image.name ≠ name) ∧
      ∀ (other : Nat) (bystander : UploadProc), pool.procs[other]? = some bystander →
        bystander.held ≠ some name := by
  have free : ∀ written content, ¬ pool.world.Made name written content := by
    intro written content made
    rcases made.keeps with there | ⟨old, -⟩
    · exact UploadWorld.find_eq_none absent _ there rfl
    · exact fresh ⟨made.own, written, made.stampedBy, old⟩
  refine ⟨fun image member same => ?_, fun other bystander there held => ?_⟩
  · exact free _ _ (same ▸ (holds.shared.saved image member).1)
  · have stands := holds.here other bystander there
    cases bystander <;> cases held
    · exact free _ _ stands.1.toMade
    · exact free _ _ stands.1.toMade
    · exact free _ _ stands.choose_spec.toMade

theorem uploadOutline_creating {stamped : Nat} {extension : List Char} {data : Bytes}
    {choice : UploadChoice} (holds : (uploadOutline uploadDir strays).Holds pool)
    (prompt : pool.world.now + nanos < stamped + uploadTTL)
    (present : pool.procs[index]? = some (.creating stamped data extension))
    (stepped : handleUpload uploadDir pool.world (.creating stamped data extension) choice =
      some (after, next)) : (uploadOutline uploadDir strays).Kept pool index after next := by
  obtain ⟨fits, era, past⟩ := holds.here index _ present
  by_cases drawn : ∃ random, choice = .draws random
  · obtain ⟨random, rfl⟩ := drawn
    simp only [handleUpload] at stepped
    split at stepped
    · cases stepped
    · rename_i free
      obtain ⟨rfl, rfl⟩ := Prod.mk.inj (Option.some.inj stepped)
      have absent := Option.not_isSome_iff_eq_none.1 free
      have stampedBy : StampedBy (pasteName stamped random extension) pool.world.now :=
        stampedBy_pasteName era past
      have fresh : ¬ ExpiredName (pasteName stamped random extension) pool.world.now :=
        not_expired_of_prompt era prompt
      obtain ⟨unsaved, unheld⟩ := uploadOutline_free holds absent fresh
      have changes := UploadWorld.changes_create stampedBy fresh
      refine changes.kept holds ?_ ⟨⟨⟨pastePrefix_pasteName _ _ _, stampedBy, Nat.le_refl _, ?_⟩,
        unsaved⟩, era, past, random, extension, rfl, fits⟩ (fun name held => held) ?_
      · exact changes.sound holds.shared (UploadWorld.nodup_create holds.shared absent)
          (fun image member same => unsaved image member (Option.some.inj same).symm)
          fun image member => .inl member
      · exact .inl (List.mem_append_right _ (List.mem_singleton_self _))
      · exact fun other bystander _ there name held mine =>
          unheld other bystander there (held.trans mine.symm)
  · have refused : pool.world = after ∧ uploadError 500 "could not store image" = next := by
      cases choice with
      | draws random => exact absurd ⟨random, rfl⟩ drawn
      | ok | fails | breaks => exact Prod.mk.inj (Option.some.inj stepped)
    obtain ⟨rfl, rfl⟩ := refused
    exact uploadOutline_quiet holds present (uploadError_stands _ _ _) fun name held => nomatch held

theorem uploadOutline_writing {stamped created : Nat} {name : List Char} {data : Bytes}
    {choice : UploadChoice} (holds : (uploadOutline uploadDir strays).Holds pool)
    (prompt : pool.world.now + nanos < stamped + uploadTTL)
    (present : pool.procs[index]? = some (.writing stamped name data created))
    (stepped : handleUpload uploadDir pool.world (.writing stamped name data created) choice =
      some (after, next)) : (uploadOutline uploadDir strays).Kept pool index after next := by
  obtain ⟨file, era, order, random, extension, named, fits⟩ := holds.here index _ present
  have stampedBy : StampedBy name pool.world.now :=
    named ▸ stampedBy_pasteName era (order.trans file.past)
  have fresh : ¬ ExpiredName name pool.world.now := named ▸ not_expired_of_prompt era prompt
  have sweepable := file.sweepable holds.shared
  have there : ⟨name, true, created, []⟩ ∈ pool.world.entries := by
    rcases file.keeps with there | ⟨old, -⟩
    · exact there
    · omega
  have wrote : ∀ content whole, (whole = true → Fits content extension) →
      (uploadOutline uploadDir strays).Kept pool index (pool.world.write name content)
        (.closing stamped name content pool.world.now whole) := by
    intro content whole whenWhole
    have changes : pool.world.Changes (pool.world.write name content) (some name) :=
      UploadWorld.changes_write sweepable stampedBy fresh
    refine changes.keptOwn holds present ?_ ⟨⟨⟨file.own, stampedBy, Nat.le_refl _, ?_⟩,
      file.unsaved⟩, fun isWhole => ⟨stamped, random, extension, named, whenWhole isWhole⟩⟩
      fun name held => held
    · refine changes.sound holds.shared ?_ (fun image member same => ?_)
        fun image member => .inl member
      · rw [UploadWorld.names_write]
        exact holds.shared.names
      · exact file.unsaved image member (Option.some.inj same).symm
    · exact .inl (UploadWorld.mem_write.2 (.inr ⟨_, there, rfl, rfl⟩))
  have unwritten : (uploadOutline uploadDir strays).Kept pool index pool.world
      (.closing stamped name [] created false) :=
    uploadOutline_quiet holds present ⟨file, nofun⟩ fun name held => held
  cases choice with
  | ok =>
    obtain ⟨rfl, rfl⟩ := Prod.mk.inj (Option.some.inj stepped)
    exact wrote data true fun _ => fits
  | breaks count =>
    obtain ⟨rfl, rfl⟩ := Prod.mk.inj (Option.some.inj stepped)
    exact wrote (data.take count) false nofun
  | fails | draws =>
    obtain ⟨rfl, rfl⟩ := Prod.mk.inj (Option.some.inj stepped)
    exact unwritten

theorem uploadOutline_closing {stamped written : Nat} {name : List Char} {content : Bytes}
    {whole : Bool} {choice : UploadChoice} (holds : (uploadOutline uploadDir strays).Holds pool)
    (present : pool.procs[index]? = some (.closing stamped name content written whole))
    (stepped : handleUpload uploadDir pool.world (.closing stamped name content written whole)
      choice = some (after, next)) :
    (uploadOutline uploadDir strays).Kept pool index after next := by
  obtain ⟨file, fits⟩ := holds.here index _ present
  have undone : (uploadOutline uploadDir strays).Kept pool index pool.world
      (.undoing stamped name written) :=
    uploadOutline_quiet holds present ⟨content, file⟩ fun name held => held
  by_cases closed : choice = .ok ∧ whole = true
  · obtain ⟨rfl, rfl⟩ := closed
    obtain ⟨rfl, rfl⟩ := Prod.mk.inj (Option.some.inj stepped)
    have changes : pool.world.Changes { pool.world with
        saved := pool.world.saved ++ [⟨name, written, content⟩] } (some name) :=
      { UploadWorld.Changes.refl pool.world (some name) with
        now := rfl
        grows := List.subset_append_left _ _
        saved := fun image member => (List.mem_append.1 member).imp_right fun new => by
          rw [List.mem_singleton.1 new] }
    refine changes.keptOwn holds present ?_ ?_ fun name held => nomatch held
    · refine changes.sound holds.shared holds.shared.names (fun image member same => ?_)
        fun image member => ?_
      · exact file.unsaved image member (Option.some.inj same).symm
      · refine (List.mem_append.1 member).imp_right fun new => ?_
        cases List.mem_singleton.1 new
        exact ⟨⟨file.own, file.stampedBy, file.past, file.keeps⟩, fits rfl⟩
    · intro path answer
      cases answer
      exact ⟨_, List.mem_append_right _ (List.mem_singleton_self _), rfl⟩
  · have failed : pool.world = after ∧ UploadProc.undoing stamped name written = next := by
      cases choice with
      | ok =>
        cases whole with
        | true => exact absurd ⟨rfl, rfl⟩ closed
        | false => exact Prod.mk.inj (Option.some.inj stepped)
      | fails | draws | breaks => cases whole <;> exact Prod.mk.inj (Option.some.inj stepped)
    obtain ⟨rfl, rfl⟩ := failed
    exact undone

theorem uploadOutline_undoing {stamped written : Nat} {name : List Char} {choice : UploadChoice}
    (holds : (uploadOutline uploadDir strays).Holds pool)
    (present : pool.procs[index]? = some (.undoing stamped name written))
    (stepped : handleUpload uploadDir pool.world (.undoing stamped name written) choice =
      some (after, next)) : (uploadOutline uploadDir strays).Kept pool index after next := by
  obtain ⟨content, file⟩ := holds.here index _ present
  cases choice with
  | ok =>
    obtain ⟨rfl, rfl⟩ := Prod.mk.inj (Option.some.inj stepped)
    have changes : pool.world.Changes (pool.world.remove name) (some name) :=
      UploadWorld.changes_remove (file.sweepable holds.shared) (.inl rfl)
    refine changes.keptOwn holds present ?_ (uploadError_stands _ _ _) fun name held => nomatch held
    refine changes.sound holds.shared (UploadWorld.nodup_remove holds.shared)
      (fun image member same => ?_) fun image member => .inl member
    exact file.unsaved image member (Option.some.inj same).symm
  | fails | draws | breaks =>
    obtain ⟨rfl, rfl⟩ := Prod.mk.inj (Option.some.inj stepped)
    exact uploadOutline_quiet holds present (uploadError_stands _ _ _) fun name held => nomatch held

/-- A sweep goes through the files, and skips what is young. -/
theorem uploadOutline_looking {asOf : Nat} {left : List (List Char)} {clean : Bool}
    {choice : UploadChoice} (holds : (uploadOutline uploadDir strays).Holds pool)
    (present : pool.procs[index]? = some (.looking asOf left clean))
    (stepped : handleUpload uploadDir pool.world (.looking asOf left clean) choice =
      some (after, next)) : (uploadOutline uploadDir strays).Kept pool index after next := by
  obtain ⟨past, sweepable, covered⟩ := holds.here index _ present
  have idle : ∀ {after : UploadProc}, after.Stands uploadDir pool.world → after.held = none →
      (uploadOutline uploadDir strays).Kept pool index pool.world after := fun stands unheld =>
    uploadOutline_quiet holds present stands fun name held => nomatch unheld.symm.trans held
  cases left with
  | nil =>
    obtain ⟨rfl, rfl⟩ := Prod.mk.inj (Option.some.inj stepped)
    exact idle ⟨past, covered⟩ rfl
  | cons name left =>
    have rest : ∀ name' ∈ left, pool.world.Sweepable name' := fun name' member =>
      sweepable name' (List.mem_cons_of_mem name member)
    -- the name may be passed over when no entry that has it is old
    have passed : (∀ entry ∈ pool.world.entries, entry.name = name →
        asOf < entry.modTime + uploadTTL) →
        (uploadOutline uploadDir strays).Kept pool index pool.world (.looking asOf left clean) := by
      intro young
      refine idle ⟨past, rest, fun isClean entry member paste old => ?_⟩ rfl
      rcases List.mem_cons.1 (covered isClean entry member paste old) with same | later
      · exact absurd old (Nat.not_le.2 (young entry member same))
      · exact later
    have dirty : (uploadOutline uploadDir strays).Kept pool index pool.world
        (.looking asOf left false) := idle ⟨past, rest, nofun⟩ rfl
    simp only [handleUpload] at stepped
    split at stepped
    · rename_i entry found
      obtain ⟨member, named⟩ := UploadWorld.find_eq_some found
      have only : ∀ other ∈ pool.world.entries, other.name = name → other = entry :=
        fun other there same => List.inj_on_of_nodup_map holds.shared.names there member
          (same.trans named.symm)
      split at stepped
      · rename_i young
        obtain ⟨rfl, rfl⟩ := Prod.mk.inj (Option.some.inj stepped)
        exact passed fun other there same => only other there same ▸ young
      · rename_i old
        obtain ⟨rfl, rfl⟩ := Prod.mk.inj (Option.some.inj stepped)
        have due := Nat.le_of_not_lt old
        obtain ⟨own, regular⟩ := sweepable name List.mem_cons_self
        have stampedBy := holds.shared.stamped entry member
          (DirEntry.isPaste_of (regular entry member named) (named ▸ own))
        exact idle ⟨past, sweepable, covered, ⟨own, _, named ▸ stampedBy, due⟩,
          fun other there same => only other there same ▸ due⟩ rfl
    · rename_i gone
      obtain ⟨rfl, rfl⟩ := Prod.mk.inj (Option.some.inj stepped)
      exact passed fun other there same =>
        absurd same (UploadWorld.find_eq_none gone other there)
    · obtain ⟨rfl, rfl⟩ := Prod.mk.inj (Option.some.inj stepped)
      exact dirty

/-- What was old when the sweep looked at it is still old when it is removed. -/
theorem uploadOutline_removing {asOf : Nat} {name : List Char} {left : List (List Char)}
    {clean : Bool} {choice : UploadChoice} (holds : (uploadOutline uploadDir strays).Holds pool)
    (present : pool.procs[index]? = some (.removing asOf name left clean))
    (stepped : handleUpload uploadDir pool.world (.removing asOf name left clean) choice =
      some (after, next)) : (uploadOutline uploadDir strays).Kept pool index after next := by
  obtain ⟨past, sweepable, covered, expired, old⟩ := holds.here index _ present
  have rest : ∀ name' ∈ left, pool.world.Sweepable name' := fun name' member =>
    sweepable name' (List.mem_cons_of_mem name member)
  cases choice with
  | ok =>
    obtain ⟨rfl, rfl⟩ := Prod.mk.inj (Option.some.inj stepped)
    have changes : pool.world.Changes (pool.world.remove name) none :=
      UploadWorld.changes_remove (sweepable name List.mem_cons_self)
        (.inr fun entry member same => (old entry member same).trans past)
    refine changes.keptOwn holds present ?_ ?_ fun name held => nomatch held
    · exact changes.sound holds.shared (UploadWorld.nodup_remove holds.shared)
        (fun image member same => nomatch same) fun image member => .inl member
    · refine ⟨past, fun name' member => changes.sweepable (rest name' member),
        fun isClean entry member paste due => ?_⟩
      obtain ⟨before, other⟩ := UploadWorld.mem_remove.1 member
      exact (List.mem_cons.1 (covered isClean entry before paste due)).resolve_left other
  | fails | draws | breaks =>
    obtain ⟨rfl, rfl⟩ := Prod.mk.inj (Option.some.inj stepped)
    exact uploadOutline_quiet holds present ⟨past, rest, nofun⟩ fun name held => nomatch held

/-! ### Runs -/

/-- Every upload that writes is prompt. -/
def promptly (pool : Pool UploadWorld UploadProc) :
    Move UploadsRequest UploadChoice UploadEvent → Prop
  | .advance index _ => ∀ proc ∈ pool.procs[index]?, proc.Prompt pool.world
  | _ => True

instance promptly.decidable (pool : Pool UploadWorld UploadProc)
    (move : Move UploadsRequest UploadChoice UploadEvent) : Decidable (promptly pool move) := by
  unfold promptly
  split <;> infer_instance

theorem uploadOutline_advance {choice : UploadChoice}
    (holds : (uploadOutline uploadDir strays).Holds pool) (prompt : proc.Prompt pool.world)
    (present : pool.procs[index]? = some proc)
    (stepped : handleUpload uploadDir pool.world proc choice = some (after, next)) :
    (uploadOutline uploadDir strays).Kept pool index after next := by
  have stands := holds.here index proc present
  cases proc with
  | reading request => exact uploadOutline_reading holds present stepped
  | making data extension =>
    cases choice <;> obtain ⟨rfl, rfl⟩ := Prod.mk.inj (Option.some.inj stepped)
    · exact uploadOutline_quiet holds present stands fun name held => nomatch held
    all_goals
      exact uploadOutline_quiet holds present (uploadError_stands pool.world _ _)
        fun name held => nomatch held
  | stamping data extension =>
    obtain ⟨rfl, rfl⟩ := Prod.mk.inj (Option.some.inj stepped)
    exact uploadOutline_quiet holds present ⟨stands, holds.shared.era, Nat.le_refl _⟩
      fun name held => nomatch held
  | creating => exact uploadOutline_creating holds prompt present stepped
  | writing => exact uploadOutline_writing holds prompt present stepped
  | closing => exact uploadOutline_closing holds present stepped
  | undoing => exact uploadOutline_undoing holds present stepped
  | sampling =>
    obtain ⟨rfl, rfl⟩ := Prod.mk.inj (Option.some.inj stepped)
    split
    · exact uploadOutline_quiet holds present ⟨Nat.le_refl _, nofun⟩ fun name held => nomatch held
    · exact uploadOutline_quiet holds present (Nat.le_refl _) fun name held => nomatch held
  | listing asOf =>
    cases choice <;> obtain ⟨rfl, rfl⟩ := Prod.mk.inj (Option.some.inj stepped)
    · refine uploadOutline_quiet holds present ⟨stands, fun name member => ?_,
        fun _ entry member paste _ => ?_⟩ fun name held => nomatch held
      · obtain ⟨entry, listed, rfl⟩ := List.mem_map.1 member
        obtain ⟨there, paste⟩ := List.mem_filter.1 listed
        obtain ⟨regular, own⟩ := Bool.and_eq_true_iff.1 paste
        refine ⟨own, fun other otherThere same => ?_⟩
        rw [List.inj_on_of_nodup_map holds.shared.names otherThere there same, regular]
      · exact List.mem_map.2 ⟨entry, List.mem_filter.2 ⟨member, paste⟩, rfl⟩
    all_goals
      exact uploadOutline_quiet holds present ⟨stands, nofun⟩ fun name held => nomatch held
  | looking => exact uploadOutline_looking holds present stepped
  | removing => exact uploadOutline_removing holds present stepped
  | answered | swept => cases stepped

/-! ### What others do -/

/-- Time has passed, and nothing of the daemon's has changed. -/
structure UploadWorld.Aside (world after : UploadWorld) : Prop where
  now : world.now ≤ after.now
  saved : after.saved = world.saved
  own : ∀ entry : DirEntry, pastePrefix.isPrefixOf entry.name = true →
    (entry ∈ after.entries ↔ entry ∈ world.entries)

section Aside

variable {world : UploadWorld} {name : List Char} {written : Nat} {content : Bytes}

theorem UploadWorld.Aside.made (aside : world.Aside after)
    (made : world.Made name written content) : after.Made name written content where
  own := made.own
  stampedBy := made.stampedBy
  past := made.past.trans aside.now
  keeps := by
    rcases made.keeps with there | ⟨old, gone⟩
    · exact .inl ((aside.own ⟨name, true, written, content⟩ made.own).2 there)
    · exact .inr ⟨old.trans aside.now, fun entry member same =>
        gone entry ((aside.own entry (same ▸ made.own)).1 member) same⟩

theorem UploadWorld.Aside.holds (aside : world.Aside after)
    (holds : world.Holds name written content) : after.Holds name written content where
  toMade := aside.made holds.toMade
  unsaved := aside.saved ▸ holds.unsaved

theorem UploadWorld.Aside.sweepable (aside : world.Aside after)
    (sweepable : world.Sweepable name) : after.Sweepable name :=
  ⟨sweepable.1, fun entry member same =>
    sweepable.2 entry ((aside.own entry (same ▸ sweepable.1)).1 member) same⟩

theorem UploadWorld.Aside.covered (aside : world.Aside after) {asOf : Nat}
    {left : List (List Char)} (covered : world.Covered asOf left) : after.Covered asOf left :=
  fun entry member paste old => covered entry
    ((aside.own entry (Bool.and_eq_true_iff.1 paste).2).1 member) paste old

theorem UploadWorld.Aside.stands (aside : world.Aside after)
    (stands : proc.Stands uploadDir world) : proc.Stands uploadDir after := by
  cases proc with
  | making | stamping => exact stands
  | creating => exact ⟨stands.1, stands.2.1, stands.2.2.trans aside.now⟩
  | writing => exact ⟨aside.holds stands.1, stands.2⟩
  | closing => exact ⟨aside.holds stands.1, stands.2⟩
  | undoing => exact stands.imp fun _ holds => aside.holds holds
  | answered => exact fun path answer => aside.saved.symm ▸ stands path answer
  | listing => exact le_trans stands aside.now
  | looking =>
    obtain ⟨past, sweepable, covered⟩ := stands
    exact ⟨past.trans aside.now, fun name member => aside.sweepable (sweepable name member),
      fun clean => aside.covered (covered clean)⟩
  | removing asOf name left clean =>
    obtain ⟨past, sweepable, covered, expired, old⟩ := stands
    exact ⟨past.trans aside.now, fun name member => aside.sweepable (sweepable name member),
      fun clean => aside.covered (covered clean), expired, fun entry member same =>
        old entry ((aside.own entry (same ▸ expired.1)).1 member) same⟩
  | swept => exact ⟨stands.1.trans aside.now, fun clean => aside.covered (stands.2 clean)⟩
  | reading | sampling => trivial

theorem UploadWorld.Aside.outline (aside : pool.world.Aside after)
    (holds : (uploadOutline uploadDir strays).Holds pool)
    (names : (after.entries.map DirEntry.name).Nodup) (era : InEra after.now)
    (kept : ∀ entry ∈ strays, entry ∈ after.entries) :
    (uploadOutline uploadDir strays).Holds { pool with world := after } where
  shared :=
    { names
      era
      stamped := fun entry member paste => holds.shared.stamped entry
        ((aside.own entry (Bool.and_eq_true_iff.1 paste).2).1 member) paste
      saved := fun image member => by
        obtain ⟨made, fits⟩ := holds.shared.saved image (aside.saved ▸ member)
        exact ⟨aside.made made, fits⟩
      strays := fun entry member => ⟨kept entry member, (holds.shared.strays entry member).2⟩ }
  here index proc present := aside.stands (holds.here index proc present)
  apart := holds.apart

end Aside

theorem uploadOutline_occur {event : UploadEvent}
    (holds : (uploadOutline uploadDir strays).Holds pool)
    (kept : ∀ entry ∈ strays, event ≠ .drop entry.name)
    (occurred : pool.world.occur event = some after) :
    (uploadOutline uploadDir strays).Holds { pool with world := after } := by
  have there : ∀ entry ∈ strays, entry ∈ pool.world.entries := fun entry member =>
    (holds.shared.strays entry member).1
  cases event with
  | wait duration =>
    simp only [UploadWorld.occur, Option.ite_none_right_eq_some] at occurred
    obtain ⟨era, rfl⟩ := occurred.imp_right Option.some.inj
    have aside : pool.world.Aside { pool.world with now := pool.world.now + duration } :=
      ⟨Nat.le_add_right _ _, rfl, fun _ _ => Iff.rfl⟩
    exact aside.outline holds holds.shared.names era there
  | put entry =>
    simp only [UploadWorld.occur, Option.ite_none_left_eq_some, Bool.or_eq_true, not_or] at occurred
    obtain ⟨⟨foreign, free⟩, rfl⟩ := occurred.imp_right Option.some.inj
    have absent := Option.not_isSome_iff_eq_none.1 free
    have aside : pool.world.Aside { pool.world with entries := pool.world.entries ++ [entry] } := by
      refine ⟨Nat.le_refl _, rfl, fun other own => ?_⟩
      rw [List.mem_append, List.mem_singleton]
      exact or_iff_left fun same => foreign (same ▸ own)
    refine aside.outline holds ?_ holds.shared.era fun other member =>
      List.mem_append_left _ (there other member)
    rw [List.map_append, List.nodup_append]
    refine ⟨holds.shared.names, List.nodup_singleton _, fun first old second new same => ?_⟩
    obtain ⟨other, member, rfl⟩ := List.mem_map.1 old
    exact UploadWorld.find_eq_none absent other member (same.trans (List.mem_singleton.1 new))
  | drop name =>
    simp only [UploadWorld.occur, Option.ite_none_left_eq_some] at occurred
    obtain ⟨foreign, rfl⟩ := occurred.imp_right Option.some.inj
    have aside : pool.world.Aside (pool.world.remove name) := by
      refine ⟨Nat.le_refl _, rfl, fun other own => ?_⟩
      rw [UploadWorld.mem_remove]
      exact and_iff_left fun same => foreign (same ▸ own)
    refine aside.outline holds (UploadWorld.nodup_remove holds.shared) holds.shared.era
      fun entry member => UploadWorld.mem_remove.2 ⟨there entry member, fun same => ?_⟩
    exact kept entry member (congrArg UploadEvent.drop same.symm)

/-- An uploaded image is whole for its time; the answer to an upload names it, and its extension
is that of its bytes. A sweep that met no error leaves no file of the daemon's that was due at its
instant. And an entry that is not the daemon's stays until another drops it. -/
theorem uploads_outlast {start final : Pool UploadWorld UploadProc}
    {moves : List (Move UploadsRequest UploadChoice UploadEvent)} (idle : start.procs = [])
    (unsaved : start.world.saved = []) (names : (start.world.entries.map DirEntry.name).Nodup)
    (era : InEra start.world.now)
    (stamped : ∀ entry ∈ start.world.entries, entry.isPaste → StampedBy entry.name entry.modTime)
    (run : Run (uploadMachine uploadDir).next promptly start moves final) :
    (∀ image ∈ final.world.saved,
      (final.world.now < image.written + uploadTTL →
        ⟨image.name, true, image.written, image.content⟩ ∈ final.world.entries) ∧
      ∃ stamped random extension, image.name = pasteName stamped random extension ∧
        uploadExt.lookup (detectImage image.content) = some extension ∧
        image.content.length ≤ maxUploadBytes) ∧
    (∀ response path, .answered response (some path) ∈ final.procs →
      ∃ image ∈ final.world.saved, path = uploadDir ++ '/' :: image.name) ∧
    (∀ asOf, .swept asOf true ∈ final.procs → ∀ entry ∈ final.world.entries, entry.isPaste →
      asOf < entry.modTime + uploadTTL) ∧
    ∀ stray ∈ start.world.entries, stray.isPaste = false →
      .occur (.drop stray.name) ∉ moves → stray ∈ final.world.entries := by
  obtain ⟨world, procs⟩ := start
  cases idle
  have holds : ∀ strays : List DirEntry, (∀ entry ∈ strays, entry ∈ world.entries ∧
      entry.isPaste = false ∧ .occur (.drop entry.name) ∉ moves) →
      (uploadOutline uploadDir strays).Holds final := by
    intro strays about
    refine (uploadOutline uploadDir strays).holds_of_run (fun pool request holds _ => ?_)
      (fun pool index choice proc world after holds permitted present stepped => ?_)
      (fun pool event world holds permitted occurred => ?_)
      (Outline.holds_empty _ ⟨names, era, stamped, ?_, ?_⟩) run.confined
    · have unheld : ((uploadMachine uploadDir).enter request).held = none := by
        cases request <;> rfl
      refine ⟨by cases request <;> trivial, fun proc member =>
        ⟨fun name held => ?_, fun name _ => ?_⟩⟩
      · exact nomatch unheld.symm.trans held
      · exact fun held => nomatch unheld.symm.trans held
    · exact uploadOutline_advance holds (permitted.1 proc present) present stepped
    · refine uploadOutline_occur holds (fun entry member same => ?_) occurred
      exact (about entry member).2.2 (same ▸ permitted.2)
    · exact fun image member => nomatch unsaved ▸ member
    · exact fun entry member => ⟨(about entry member).1, (about entry member).2.1⟩
  have any := holds [] nofun
  refine ⟨fun image member => ?_, fun response path member => ?_,
    fun asOf member entry there paste => ?_, fun stray there foreign undropped => ?_⟩
  · obtain ⟨made, stamped, random, extension, named, fits⟩ := any.shared.saved image member
    refine ⟨fun young => ?_, stamped, random, extension, named, fits⟩
    exact made.keeps.resolve_right fun old => Nat.not_lt.2 old.1 young
  · obtain ⟨index, present⟩ := List.getElem?_of_mem member
    exact any.here index _ present path rfl
  · obtain ⟨index, present⟩ := List.getElem?_of_mem member
    obtain ⟨-, covered⟩ := any.here index _ present
    exact Nat.lt_of_not_le fun old => nomatch covered rfl entry there paste old
  · refine ((holds [stray] fun entry member => ?_).shared.strays stray
      (List.mem_singleton_self _)).1
    rw [List.mem_singleton.1 member]
    exact ⟨there, foreign, undropped⟩

end Uploads

/-- One image is uploaded and another a day after it; then a sweep begins. -/
def uploadTwice (body : Bytes) : List (Move UploadsRequest UploadChoice UploadEvent) :=
  .arrive (.upload ⟨"image/gif", body, false⟩) ::
    [.ok, .ok, .ok, .draws ['7'], .ok, .ok].map (.advance 0) ++
  .occur (.wait uploadTTL) :: .arrive (.upload ⟨"image/gif", body, false⟩) ::
    [.ok, .ok, .ok, .draws ['7'], .ok, .ok].map (.advance 1) ++
  .arrive .sweep :: List.replicate 6 (.advance 2 .ok)

theorem uploads_outlast_uploadTwice :
    ∃ final : Pool UploadWorld UploadProc,
      final.world.entries.map DirEntry.name =
        ["notes".toList, "paste-19700102-000000-7.gif".toList] ∧
      (∀ image ∈ final.world.saved, final.world.now < image.written + uploadTTL →
        ⟨image.name, true, image.written, image.content⟩ ∈ final.world.entries) ∧
      ⟨"notes".toList, true, 0, []⟩ ∈ final.world.entries := by
  obtain ⟨final, done, listed⟩ := exists_of_exec (uploadMachine ['/', 'u']).next
    { world := ⟨0, [⟨"notes".toList, true, 0, []⟩], []⟩, procs := [] }
    (uploadTwice (bytes "GIF89a"))
    (fun pool => pool.world.entries.map DirEntry.name =
        ["notes".toList, "paste-19700102-000000-7.gif".toList]) rfl
  have outlast := uploads_outlast rfl rfl (by decide) (by decide)
    (by simp [DirEntry.isPaste, pastePrefix]) (Run.of_exec done (by decide) : Run _ promptly _ _ _)
  exact ⟨final, of_decide_eq_true listed, fun image member => (outlast.1 image member).1,
    outlast.2.2.2 _ (List.mem_singleton_self _) rfl (by simp [uploadTwice])⟩

end Multimux
