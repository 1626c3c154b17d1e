import Blockwork.Document.Script

/-!
# Archives

Where scripts are kept between sessions, one document for each owner.  A session only needs the four
operations of the class; there is an archive in memory, one that is a folder of files, and one that
passes everything on to another until it is taken down.

A folder keeps a script as `<owner>.json`.  Saving writes `<owner>.json.tmp` first and then renames
it, so the old document is replaced at once; where a folder stands in the way, the save fails and
the temporary file stays behind.
-/

namespace Blockwork

/-- Why an archive could not do what was asked. -/
inductive ArchiveError where
  /-- Reading or writing failed. -/
  | io
  /-- What was stored is not a script. -/
  | document (e : DocumentError)
deriving Inhabited

/-- The text of an error. -/
def ArchiveError.message : ArchiveError → String
  | .io => "io error"
  | .document e => "corrupt script document: " ++ e.message

/-- A place where scripts are kept. -/
class Archive (σ : Type) where
  /-- The script of an owner, if there is one. -/
  load : σ → ActorId → Uuid.Supply → Except ArchiveError (Option (Script × Uuid.Supply))
  /-- Keeps a script under its owner. -/
  save : σ → Script → Except ArchiveError Unit × σ
  /-- Forgets the script of an owner. -/
  delete : σ → ActorId → Except ArchiveError Unit × σ
  /-- The owners of the scripts that are kept. -/
  owners : σ → Except ArchiveError (List ActorId)

/-- Reads a stored document. -/
def Archive.read (text : String) (supply : Uuid.Supply) :
    Except ArchiveError (Option (Script × Uuid.Supply)) :=
  match Script.ofText text supply with
  | .ok found => .ok (some found)
  | .error e => .error (.document e)

/-- Documents in memory. -/
structure MemoryArchive where
  /-- The documents by owner. -/
  documents : Table ActorId String := {}
deriving Inhabited

instance : Archive MemoryArchive where
  load a owner supply :=
    match a.documents.get? owner with
    | some text => Archive.read text supply
    | none => .ok none
  save a s := (.ok (), ⟨a.documents.insert s.ownerId s.toText⟩)
  delete a owner := (.ok (), ⟨a.documents.erase owner⟩)
  owners a := .ok a.documents.keys

/-- What a name in a folder stands for. -/
inductive FolderEntry where
  /-- A file with its text. -/
  | file (text : String)
  /-- A folder. -/
  | folder
deriving Inhabited

/-- A folder of documents. -/
structure FolderArchive where
  /-- Its entries by name. -/
  entries : Table String FolderEntry := {}
deriving Inhabited

namespace FolderArchive

/-- The name of an owner's file. -/
def fileName (owner : ActorId) : String := owner.text ++ ".json"

/-- The name of the file that a save writes first. -/
def temporaryName (owner : ActorId) : String := owner.text ++ ".json.tmp"

/-- The owner that the name of an entry speaks of. -/
def ownerOf? (name : String) : Option ActorId :=
  match Text.afterStart? ".json".toList.reverse name.toList.reverse with
  | some stem => Uuid.parse? (String.ofList stem.reverse)
  | none => none

/-- Writes a file as it is. -/
def put (a : FolderArchive) (name text : String) : FolderArchive :=
  ⟨a.entries.insert name (.file text)⟩

/-- Makes a folder. -/
def makeFolder (a : FolderArchive) (name : String) : FolderArchive :=
  ⟨a.entries.insert name .folder⟩

/-- Writes a script to its temporary file and renames it. -/
def write (a : FolderArchive) (s : Script) : Except ArchiveError Unit × FolderArchive :=
  match a.entries.get? (temporaryName s.ownerId) with
  | some .folder => (.error .io, a)
  | _ =>
    match a.entries.get? (fileName s.ownerId) with
    | some .folder => (.error .io, a.put (temporaryName s.ownerId) s.toText)
    | _ =>
      (.ok (), ⟨(a.entries.erase (temporaryName s.ownerId)).insert (fileName s.ownerId)
        (.file s.toText)⟩)

instance : Archive FolderArchive where
  load a owner supply :=
    match a.entries.get? (fileName owner) with
    | some (.file text) => Archive.read text supply
    | some .folder => .error .io
    | none => .ok none
  save := write
  delete a owner :=
    match a.entries.get? (fileName owner) with
    | some .folder => (.error .io, a)
    | _ => (.ok (), ⟨a.entries.erase (fileName owner)⟩)
  owners a := .ok (a.entries.keys.filterMap ownerOf?)

end FolderArchive

/-- An archive that can be taken down. -/
structure Outage (σ : Type) where
  /-- The archive behind it. -/
  archive : σ
  /-- Whether every call fails. -/
  down : Bool := false

instance {σ : Type} [Archive σ] : Archive (Outage σ) where
  load a owner supply := if a.down then .error .io else Archive.load a.archive owner supply
  save a s :=
    if a.down then (.error .io, a)
    else
      let (result, archive) := Archive.save a.archive s
      (result, { a with archive := archive })
  delete a owner :=
    if a.down then (.error .io, a)
    else
      let (result, archive) := Archive.delete a.archive owner
      (result, { a with archive := archive })
  owners a := if a.down then .error .io else Archive.owners a.archive

end Blockwork
