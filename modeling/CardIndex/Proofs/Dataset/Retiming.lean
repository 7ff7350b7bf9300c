import CardIndex.Proofs.Catalog.Retiming
import CardIndex.Proofs.Dataset.Files

namespace CardIndex

open Json Json.Tree

theorem parallel_readInput {R : ByteArray → ByteArray → Prop} {T : String → String → Prop}
    (hdecode : ∀ a b, R a b → Alike T (FileSystem.decode a) (FileSystem.decode b)) (path : Path) :
    Parallel (World.Corresponds R) (World.Corresponds R) T (readInput path) (readInput path) := by
  refine (World.parallel_holds path).bind fun held held' hheld => ?_
  obtain rfl : held = held' := hheld
  split
  · exact parallel_io fun w w' h => ⟨(FileSystem.Corresponds.read h path).bind hdecode, h⟩
  · exact parallel_throw _

/-- Where files hold the same, the same dump is found. -/
theorem parallel_readDump (path : Path) :
    Parallel (World.Corresponds Eq) (World.Corresponds Eq) Eq (readDump path) (readDump path) := by
  have hdecode (a b : ByteArray) (h : a = b) : Alike Eq (FileSystem.decode a) (FileSystem.decode b) :=
    .of_eq (congrArg FileSystem.decode h)
  refine (parallel_readInput hdecode path).bind fun text text' htext => ?_
  obtain rfl : text = text' := htext
  split
  · exact parallel_pure rfl
  · exact parallel_throw _
  · exact parallel_throw _

def Dataset.SameCards (d d' : Dataset) : Prop := d.cards = d'.cards

theorem Dataset.sameCards_refl (d : Dataset) : SameCards d d := rfl

/-- The cards of a dataset are read in the same way, whenever it was written. -/
theorem parallel_readDataset (path : Path) :
    Parallel World.UpToTimes World.UpToTimes Dataset.SameCards (readDataset path) (readDataset path) := by
  have hread (x y : Tree) (h : Retimed x y) :
      Option.Rel Dataset.SameCards (Dataset.ofTree? x.reread) (Dataset.ofTree? y.reread) := by
    cases h with
    | dataset t t' cards =>
      rw [Dataset.ofTree?_reread, Dataset.ofTree?_reread]
      simp only [Dataset.ofCards]
      cases (natural cards.length).reread.natural? with
      | none => exact .none
      | some total =>
        cases (list Card.toTree cards).reread.list? Card.ofTree? with
        | none => exact .none
        | some read => exact .some rfl
    | table h =>
      rw [Dataset.ofTree?_table, Dataset.ofTree?_table]
      exact .none
  have hdecode (a b : ByteArray) (h : CardIndex.UpToTimes a b) :
      Alike (ReadAlike Dataset.ofTree? Dataset.SameCards) (FileSystem.decode a) (FileSystem.decode b) :=
    h.decode Dataset.sameCards_refl hread
  refine (parallel_readInput hdecode path).bind fun text text' h => ?_
  unfold ReadAlike at h
  generalize (Tree.ofText? text).bind Dataset.ofTree? = read at h ⊢
  generalize (Tree.ofText? text').bind Dataset.ofTree? = read' at h ⊢
  cases h with
  | none => exact parallel_throw _
  | some h => exact parallel_pure h

theorem parallel_writeJson (path : Path) {one other : Tree} (h : UpToTimes one.prettyText.toUTF8 other.prettyText.toUTF8) :
    Parallel World.UpToTimes World.UpToTimes Eq (writeJson path one) (writeJson path other) := by
  have hlast := World.parallel_write path h
  unfold writeJson
  split
  · split
    · exact (World.parallel_makeDirectories _).bind fun _ _ _ => hlast
    · exact hlast
  · exact hlast

/-- Turning a dump into a dataset at another time makes no other difference. -/
theorem parallel_transform (raw dataset manifest : Path) : Parallel (World.Corresponds Eq) World.UpToTimes Eq
    (transform raw dataset manifest) (transform raw dataset manifest) := by
  have hfiles (w w' : World) (h : World.Corresponds Eq w w') : World.UpToTimes w w' :=
    FileSystem.Corresponds.mono h fun a b hab => hab ▸ .same a
  refine ((parallel_readDump raw).mono hfiles).bind fun dump dump' hdump => ?_
  obtain rfl : dump = dump' := hdump
  have hnow : Parallel World.UpToTimes World.UpToTimes (fun _ _ => True) (liftM (Clock.now : StateM World Timestamp))
    (liftM (Clock.now : StateM World Timestamp)) := parallel_lift fun _ _ hworlds => ⟨trivial, hworlds⟩
  refine hnow.bind fun now now' _ => ?_
  refine (parallel_writeJson dataset (.texts (.dataset now now' dump.cards))).bind fun _ _ _ => ?_
  refine (parallel_writeJson manifest (.same _)).bind fun _ _ _ => ?_
  exact parallel_pure rfl

end CardIndex
