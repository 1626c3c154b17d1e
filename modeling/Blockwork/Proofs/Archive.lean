import Blockwork.Archive
import Blockwork.Proofs.Table
import Blockwork.Proofs.Uuid

/-!
# Archives keep owners apart

What an archive has for one owner does not depend on what is saved for another.  `Shelved` states
this through the *place* of an owner: loading looks into it and nowhere else, and saving writes to the
place of the owner that the script names.  Each of the archives has such places.  For a folder this
rests on names: different owners have different file names, and no temporary name is a file name.

`Filing` says what such a place is for.  It holds a document: a save that succeeds puts the script's
text there, one that fails changes no document, and what is loaded is read from it.
-/

namespace Blockwork

/-- An archive in which every owner has a place of its own. -/
class Shelved (σ : Type) [Archive σ] where
  /-- What a place can hold. -/
  Place : Type
  /-- What the place of an owner holds. -/
  place : σ → ActorId → Place
  /-- Loading looks into the place of the owner only. -/
  load_congr : ∀ {a a' : σ} {o : ActorId}, place a' o = place a o →
    Archive.load a' o = Archive.load a o
  /-- Saving writes to the place of the script's owner only. -/
  place_save : ∀ (a : σ) (s : Script) {o : ActorId}, s.ownerId ≠ o →
    place (Archive.save a s).2 o = place a o

instance : Shelved MemoryArchive where
  Place := Option String
  place a o := a.documents.get? o
  load_congr same := by
    funext supply
    simp only [Archive.load, same]
  place_save a s o other := Table.get?_insert_of_ne a.documents s.toText other

namespace FolderArchive

theorem fileName_injective {u v : ActorId} (h : fileName u = fileName v) : u = v := by
  have chars : u.text.toList ++ ".json".toList = v.text.toList ++ ".json".toList := by
    simpa only [fileName, String.toList_append] using congrArg String.toList h
  exact Uuid.text_injective (String.toList_inj.mp (List.append_cancel_right chars))

/-- The last letters differ. -/
theorem temporaryName_ne_fileName (u v : ActorId) : temporaryName u ≠ fileName v := by
  intro h
  have chars : u.text.toList ++ ".json.tmp".toList = v.text.toList ++ ".json".toList := by
    simpa only [fileName, temporaryName, String.toList_append] using congrArg String.toList h
  have last := congrArg List.getLast? chars
  rw [List.getLast?_append_of_ne_nil _ (by simp), List.getLast?_append_of_ne_nil _ (by simp)] at last
  exact absurd last (by decide)

/-- A save leaves the file of every other owner. -/
theorem get?_write {s : Script} {o : ActorId} (a : FolderArchive) (other : s.ownerId ≠ o) :
    (a.write s).2.entries.get? (fileName o) = a.entries.get? (fileName o) := by
  have file : fileName s.ownerId ≠ fileName o := fun h => other (fileName_injective h)
  have temporary := temporaryName_ne_fileName s.ownerId o
  unfold write
  split
  · rfl
  split
  · exact Table.get?_insert_of_ne _ _ temporary
  · show ((a.entries.erase _).insert _ _).get? _ = _
    rw [Table.get?_insert_of_ne _ _ file, Table.get?_erase, if_neg temporary]

instance : Shelved FolderArchive where
  Place := Option FolderEntry
  place a o := a.entries.get? (fileName o)
  load_congr same := by
    funext supply
    simp only [Archive.load, same]
  place_save a _ _ other := a.get?_write other

end FolderArchive

/-- An archive that can be taken down has the places of the one behind it. -/
instance {σ : Type} [Archive σ] [Shelved σ] : Shelved (Outage σ) where
  Place := Bool × Shelved.Place σ
  place a o := (a.down, Shelved.place a.archive o)
  load_congr {a a' o} same := by
    obtain ⟨down, same⟩ := Prod.mk.inj same
    funext supply
    simp only [Archive.load, down, Shelved.load_congr same]
  place_save a s o other := by
    have kept := Shelved.place_save a.archive s other
    show (((Archive.save a s).2).down, Shelved.place ((Archive.save a s).2).archive o) = _
    simp only [Archive.save]
    split
    · rfl
    · exact congrArg (a.down, ·) kept

/-! ## Documents -/

/-- An archive that files a script under its owner, one document for each. -/
class Filing (σ : Type) [Archive σ] where
  /-- The document that is kept for an owner. -/
  document? : σ → ActorId → Option String
  /-- A save that succeeds files the text of the script under its owner. -/
  document?_saved : ∀ {a a' : σ} {s : Script}, Archive.save a s = (.ok (), a') →
    ∀ o, document? a' o = if s.ownerId = o then some s.toText else document? a o
  /-- A save that fails leaves every document. -/
  document?_failed : ∀ {a a' : σ} {s : Script} {e : ArchiveError},
    Archive.save a s = (.error e, a') → ∀ o, document? a' o = document? a o
  /-- What is loaded for an owner is read from the owner's document. -/
  document?_loaded : ∀ {a : σ} {o : ActorId} {supply : Uuid.Supply} {r : Script × Uuid.Supply},
    Archive.load a o supply = .ok (some r) →
      ∃ text, document? a o = some text ∧ Script.ofText text supply = .ok r

theorem Archive.read_eq_ok {text : String} {supply : Uuid.Supply} {r : Script × Uuid.Supply}
    (h : Archive.read text supply = .ok (some r)) : Script.ofText text supply = .ok r := by
  unfold Archive.read at h
  split at h
  · next read => cases h; exact read
  · cases h

instance : Filing MemoryArchive where
  document? a o := a.documents.get? o
  document?_saved {a _ s} saved o := by
    cases saved
    split
    · next own => exact own ▸ Table.get?_insert_self ..
    · next other => exact Table.get?_insert_of_ne _ _ other
  document?_failed failed := nomatch failed
  document?_loaded {a o _ _} loaded := by
    simp only [Archive.load] at loaded
    split at loaded
    · next text found => exact ⟨text, found, Archive.read_eq_ok loaded⟩
    · cases loaded

namespace FolderArchive

/-- The text of an owner's file. -/
def document? (a : FolderArchive) (o : ActorId) : Option String :=
  match a.entries.get? (fileName o) with
  | some (.file text) => some text
  | _ => none

theorem document?_saved {a a' : FolderArchive} {s : Script} (saved : a.write s = (.ok (), a'))
    (o : ActorId) : a'.document? o = if s.ownerId = o then some s.toText else a.document? o := by
  split
  · next own =>
    subst own
    unfold write at saved
    split at saved
    · cases saved
    split at saved
    · cases saved
    · cases saved
      simp only [document?, Table.get?_insert_self]
  · next other =>
    have kept := a.get?_write other
    rw [saved] at kept
    simp only [document?, kept]

/-- A failed save leaves at most a temporary file behind. -/
theorem document?_failed {a a' : FolderArchive} {s : Script} {e : ArchiveError}
    (failed : a.write s = (.error e, a')) (o : ActorId) : a'.document? o = a.document? o := by
  unfold write at failed
  split at failed
  · cases failed
    rfl
  split at failed
  · cases failed
    have temporary := temporaryName_ne_fileName s.ownerId o
    simp only [document?, put, Table.get?_insert_of_ne _ _ temporary]
  · cases failed

instance : Filing FolderArchive where
  document? := document?
  document?_saved := document?_saved
  document?_failed := document?_failed
  document?_loaded {a o _ _} loaded := by
    simp only [Archive.load] at loaded
    split at loaded
    · next text found =>
      exact ⟨text, by simp only [document?, found], Archive.read_eq_ok loaded⟩
    · cases loaded
    · cases loaded

end FolderArchive

/-- An archive that can be taken down keeps the documents of the one behind it. -/
instance {σ : Type} [Archive σ] [Filing σ] : Filing (Outage σ) where
  document? a o := Filing.document? a.archive o
  document?_saved {a _ s} saved o := by
    simp only [Archive.save] at saved
    split at saved
    · cases saved
    · obtain ⟨result, rfl⟩ := Prod.mk.inj saved
      exact Filing.document?_saved (Prod.ext result rfl) o
  document?_failed {a _ s _} failed o := by
    simp only [Archive.save] at failed
    split at failed
    · cases failed
      rfl
    · obtain ⟨result, rfl⟩ := Prod.mk.inj failed
      exact Filing.document?_failed (Prod.ext result rfl) o
  document?_loaded loaded := by
    simp only [Archive.load] at loaded
    split at loaded
    · cases loaded
    · exact Filing.document?_loaded loaded

end Blockwork
