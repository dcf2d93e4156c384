/-
This file models the images that a page uploads to be pasted: the checks of an
upload, the file it is saved in, and the hourly sweep that removes what is a
day old. An upload takes its time stamp, creates the file, writes, closes and
answers in separate steps, and a sweep looks at a file before it removes it, so
uploads and the sweeps of several daemons overlap in every way over one
directory, in which there are other files too.
-/

import Multimux.Bytes
import Multimux.Calendar
import Multimux.Credentials

namespace Multimux

/-! ### Names -/

/-- A second in nanoseconds, as the clock counts. -/
def nanos : Nat := 1000000000

/-- How long an upload is kept, in nanoseconds. -/
def uploadTTL : Nat := 24 * 3600 * nanos

/-- A date and a time of day as `20060102-150405`. -/
def compactText (date : Nat × Nat × Nat) (clock : Nat) : List Char :=
  padded 4 date.1 ++ (padded 2 (date.2.1 + 1) ++ (padded 2 (date.2.2 + 1) ++ '-' ::
    (padded 2 (clock / 3600) ++ (padded 2 (clock / 60 % 60) ++ padded 2 (clock % 60)))))

/-- `Format("20060102-150405")` of an instant that is counted from 1970. -/
def stampText (instant : Nat) : List Char :=
  let seconds := instant / nanos + epochSeconds
  compactText (dateOf (seconds / 86400)) (seconds % 86400)

/-- What the names of uploads start with. -/
def pastePrefix : List Char := "paste-".toList

/-- The name of a saved image; `CreateTemp` puts a random text for the star. -/
def pasteName (stamped : Nat) (random extension : List Char) : List Char :=
  pastePrefix ++ (stampText stamped ++ '-' :: (random ++ extension))

/-- The instants whose year has four digits. -/
def InEra (instant : Nat) : Prop := (instant / nanos + epochSeconds) / 86400 < eraDays

instance InEra.decidable (instant : Nat) : Decidable (InEra instant) :=
  inferInstanceAs (Decidable (_ < _))

/-! ### Images -/

/-- The largest image. -/
def maxUploadBytes : Nat := 32 * 1024 * 1024

/-- The types of images that are taken, with their extensions. -/
def uploadExt : List (String × List Char) :=
  [("image/png", ".png".toList), ("image/jpeg", ".jpg".toList), ("image/gif", ".gif".toList),
    ("image/webp", ".webp".toList)]

/-- `http.DetectContentType`, as far as it finds one of these types. -/
def detectImage (data : Bytes) : String :=
  if (bytes "GIF87a").isPrefixOf data || (bytes "GIF89a").isPrefixOf data then "image/gif"
  else if (bytes "RIFF").isPrefixOf data && (bytes "WEBPVP").isPrefixOf (data.drop 8) then
    "image/webp"
  else if [0x89, 0x50, 0x4E, 0x47, 0x0D, 0x0A, 0x1A, 0x0A].isPrefixOf data then "image/png"
  else if [0xFF, 0xD8, 0xFF].isPrefixOf data then "image/jpeg"
  else "application/octet-stream"

/-! ### The directory -/

/-- An entry of the directory. -/
structure DirEntry where
  name : List Char
  regular : Bool
  modTime : Nat
  content : Bytes

/-- An entry that the daemon may have made. -/
def DirEntry.isPaste (entry : DirEntry) : Bool :=
  entry.regular && pastePrefix.isPrefixOf entry.name

/-- An upload that was answered with the path of its file. -/
structure SavedImage where
  name : List Char
  written : Nat
  content : Bytes

/-- The clock, the directory, and the uploads that were answered with a path. -/
structure UploadWorld where
  now : Nat
  entries : List DirEntry
  saved : List SavedImage

namespace UploadWorld

/-- The entry of a name. -/
def find (world : UploadWorld) (name : List Char) : Option DirEntry :=
  world.entries.find? (·.name = name)

/-- A new and empty file. -/
def create (world : UploadWorld) (name : List Char) : UploadWorld :=
  { world with entries := world.entries ++ [⟨name, true, world.now, []⟩] }

/-- The content of a file, which is as new as the write. -/
def write (world : UploadWorld) (name : List Char) (content : Bytes) : UploadWorld :=
  { world with entries := world.entries.map fun entry =>
      if entry.name = name then { entry with modTime := world.now, content } else entry }

/-- The entry is gone. -/
def remove (world : UploadWorld) (name : List Char) : UploadWorld :=
  { world with entries := world.entries.filter (·.name ≠ name) }

end UploadWorld

/-! ### Requests -/

/-- The type that an upload declares, and its body; the body may break off. -/
structure UploadRequest where
  contentType : String
  body : Bytes
  broken : Bool

/-- A request with an image, or a sweep. -/
inductive UploadsRequest
  | upload (request : UploadRequest)
  | sweep

/-- Where an upload or a sweep stands. An upload keeps when it took its stamp; one that holds
its file keeps when it wrote it last. A sweep keeps the instant it goes by and whether every
call went through so far. -/
inductive UploadProc
  | reading (request : UploadRequest)
  | making (data : Bytes) (extension : List Char)
  | stamping (data : Bytes) (extension : List Char)
  | creating (stamped : Nat) (data : Bytes) (extension : List Char)
  | writing (stamped : Nat) (name : List Char) (data : Bytes) (created : Nat)
  | closing (stamped : Nat) (name : List Char) (content : Bytes) (written : Nat) (whole : Bool)
  | undoing (stamped : Nat) (name : List Char) (written : Nat)
  | answered (response : Response) (path : Option (List Char))
  | sampling
  | listing (asOf : Nat)
  | looking (asOf : Nat) (left : List (List Char)) (clean : Bool)
  | removing (asOf : Nat) (name : List Char) (left : List (List Char)) (clean : Bool)
  | swept (asOf : Nat) (clean : Bool)

/-- How a call goes: through, or with an error; `CreateTemp` draws a text, and a write may break
off after some bytes, or before any. -/
inductive UploadChoice
  | ok
  | fails
  | draws (random : List Char)
  | breaks (count : Nat)

/-- An answer with an error. -/
def uploadError (status : Nat) (error : String) : UploadProc := .answered ⟨status, some error⟩ none

section Uploads

variable (uploadDir : List Char)

/-- `handleUpload` and `sweepUploads`, one call at a time. The answered path is the name in the
upload directory, which `filepath.Abs` leaves as it is where the directory is absolute. -/
def handleUpload (world : UploadWorld) :
    UploadProc → UploadChoice → Option (UploadWorld × UploadProc)
  | .reading request, _ => some (world,
      if uploadDir = [] then uploadError 503 "uploads disabled"
      else if (uploadExt.lookup request.contentType).isNone then
        uploadError 415 "expected png, jpeg, gif, or webp image"
      else if maxUploadBytes < request.body.length then
        uploadError 413 "image larger than 32 MiB"
      else if request.broken then uploadError 400 "could not read body"
      else match uploadExt.lookup (detectImage request.body) with
        | none => uploadError 415 "body is not a png, jpeg, gif, or webp image"
        | some extension => .making request.body extension)
  | .making data extension, choice =>
    match choice with
    | .ok => some (world, .stamping data extension)
    | _ => some (world, uploadError 500 "could not store image")
  | .stamping data extension, _ => some (world, .creating world.now data extension)
  | .creating stamped data extension, choice =>
    match choice with
    | .draws random =>
      let name := pasteName stamped random extension
      -- the file is opened exclusively; for a name that is taken another one is drawn
      if (world.find name).isSome then none
      else some (world.create name, .writing stamped name data world.now)
    | _ => some (world, uploadError 500 "could not store image")
  | .writing stamped name data created, choice =>
    match choice with
    | .ok => some (world.write name data, .closing stamped name data world.now true)
    | .breaks count =>
      some (world.write name (data.take count),
        .closing stamped name (data.take count) world.now false)
    | _ => some (world, .closing stamped name [] created false)
  | .closing stamped name content written whole, choice =>
    match choice, whole with
    | .ok, true => some ({ world with saved := world.saved ++ [⟨name, written, content⟩] },
        .answered ⟨201, none⟩ (some (uploadDir ++ '/' :: name)))
    | _, _ => some (world, .undoing stamped name written)
  | .undoing _ name _, choice =>
    match choice with
    | .ok => some (world.remove name, uploadError 500 "could not store image")
    | _ => some (world, uploadError 500 "could not store image")
  | .answered _ _, _ => none
  | .sampling, _ =>
    some (world, if uploadDir = [] then .swept world.now false else .listing world.now)
  | .listing asOf, choice =>
    match choice with
    | .ok => some (world, .looking asOf ((world.entries.filter (·.isPaste)).map DirEntry.name) true)
    | _ => some (world, .swept asOf false)
  | .looking asOf [] clean, _ => some (world, .swept asOf clean)
  | .looking asOf (name :: left) clean, choice =>
    match choice, world.find name with
    | .ok, some entry =>
      if asOf < entry.modTime + uploadTTL then some (world, .looking asOf left clean)
      else some (world, .removing asOf name left clean)
    | .ok, none => some (world, .looking asOf left clean)
    | _, _ => some (world, .looking asOf left false)
  | .removing asOf name left clean, choice =>
    match choice with
    | .ok => some (world.remove name, .looking asOf left clean)
    | _ => some (world, .looking asOf left false)
  | .swept _ _, _ => none

/-- What others do: time passes within the era, and entries are put and removed whose names the
daemon does not use. -/
inductive UploadEvent
  | wait (duration : Nat)
  | put (entry : DirEntry)
  | drop (name : List Char)

/-- What happens besides: time passes, and other files come and go. -/
def UploadWorld.occur (world : UploadWorld) : UploadEvent → Option UploadWorld
  | .wait duration =>
    if InEra (world.now + duration) then some { world with now := world.now + duration } else none
  | .put entry =>
    if pastePrefix.isPrefixOf entry.name || (world.find entry.name).isSome then none
    else some { world with entries := world.entries ++ [entry] }
  | .drop name => if pastePrefix.isPrefixOf name then none else some (world.remove name)

/-- Overlapping uploads and sweeps. -/
def uploadMachine : Machine UploadWorld UploadsRequest UploadProc UploadChoice UploadEvent where
  enter
    | .upload request => .reading request
    | .sweep => .sampling
  step := handleUpload uploadDir
  outside := UploadWorld.occur

end Uploads

end Multimux
