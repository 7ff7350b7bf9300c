import CardIndex.Proofs.Card.Restatement
import CardIndex.Proofs.Dataset.Files
import CardIndex.Proofs.Disk.Alteration
import Mathlib.Data.List.Infix

namespace CardIndex

open CardIndex.Path

namespace AssetLayout

theorem isPathSafe_stem (key : String) : ∀ c ∈ (stem key).toList, isPathSafe c = true := by
  intro c hc
  rw [stem, String.toList_map] at hc
  obtain ⟨d, -, rfl⟩ := List.mem_map.1 hc
  split
  · assumption
  · decide

theorem stem_ne_empty {key : String} (h : key ≠ "") : stem key ≠ "" := by
  intro hempty
  have hkey : key.toList = [] := by simpa [stem] using congrArg String.toList hempty
  exact h (String.toList_eq_nil_iff.1 hkey)

/-- The name of the file that holds a card's image. -/
def fileName (key : String) : String := stem key ++ ".webp"

theorem slash_notMem_fileName (key : String) : '/' ∉ (fileName key).toList := by
  intro h
  rw [fileName, String.toList_append, List.mem_append] at h
  rcases h with hstem | htype
  · exact absurd (isPathSafe_stem key _ hstem) (by decide)
  · exact absurd htype (by decide)

theorem isName_fileName (key : String) : IsName (fileName key) := by
  apply isName_of_length (slash_notMem_fileName key)
  rw [fileName, String.length_append]
  have htype : ".webp".length = 5 := by decide
  omega

theorem fileName_inj {key key' : String} (h : fileName key = fileName key') : stem key = stem key' := by
  have htext := congrArg String.toList h
  rw [fileName, fileName, String.toList_append, String.toList_append] at htext
  exact String.toList_inj.1 (List.append_cancel_right htext)

/-- The names on the way to a card's image. -/
def way (key : String) : List String := ["assets", "cards", fileName key]

theorem of_mem_way {key : String} : ∀ name ∈ way key, '/' ∉ name.toList ∧ name ≠ "" := by
  intro name hname
  have hfile := isName_fileName key
  simp only [way, List.mem_cons, List.not_mem_nil, or_false] at hname
  rcases hname with rfl | rfl | rfl
  · decide
  · decide
  · exact ⟨hfile.slash, hfile.empty⟩

theorem path_eq (key : String) : standard.path key = ofNames false (way key) := by
  simp [path, standard, ofNames, way, fileName, ← String.toList_inj]

theorem parts_path (key : String) : parts (standard.path key) = way key := by
  rw [path_eq, parts_ofNames _ _ of_mem_way]

theorem isAbsolute_path (key : String) : isAbsolute (standard.path key) = false := by
  rw [path_eq, isAbsolute_ofNames _ _ of_mem_way]

theorem endsIn_path (key : String) : EndsIn (standard.path key) "assets/cards/".toList (fileName key).toList :=
  ⟨by simp [path, standard, fileName], slash_notMem_fileName key, .inr ⟨"assets/cards".toList, by decide⟩⟩

/-- Keys that give the same name share a path. -/
theorem path_congr {key key' : String} (h : stem key = stem key') : standard.path key = standard.path key' := by
  rw [path, path, h]

end AssetLayout

/-- The image of each card of a dump is kept under its slug, which is not empty. -/
theorem Dump.exists_slug {dump : Dump} {c : Card} (h : c ∈ dump.cards) :
    c.slug ≠ "" ∧ c.assets.localPath = AssetLayout.standard.path c.slug := by
  obtain ⟨i, hi, rfl⟩ := List.mem_mapIdx.1 h
  exact ⟨(Card.tidy_ofRow _ i).slug.ne_empty, (Card.derived_ofRow _ i).localPath⟩

namespace ImageFetcher

open FileSystem AssetLayout

variable {f : ImageFetcher} {entry : ManifestEntry} {slug : String}

theorem parts_target (h : entry.localPath = standard.path slug) :
    parts (f.target entry) = parts f.assetRoot ++ way slug := by
  rw [target, h, parts_join_relative _ (isAbsolute_path slug), parts_path]

theorem start_target (fs : FileSystem) (h : entry.localPath = standard.path slug) :
    fs.start (f.target entry) = fs.start f.assetRoot := by
  rw [start, start, target, h, isAbsolute_join _ (isAbsolute_path slug)]

/-- The path to a card's image can lead to a file. -/
theorem asksForDirectory_target (h : entry.localPath = standard.path slug) :
    asksForDirectory (f.target entry) = false := by
  obtain ⟨front, hends⟩ := (endsIn_path slug).join (isAbsolute_path slug) f.assetRoot
  rw [target, h]
  exact hends.asksForDirectory (by simpa using isName_fileName slug)

theorem foldl_walk_way (place : Place) (slug : String) : (way slug).foldl walk place = place ++ way slug := by
  have hfile := isName_fileName slug
  simp [way, walk, hfile.dot, hfile.dots]

/-- A card's image is below the asset root. -/
theorem named_target (fs : FileSystem) (h : entry.localPath = standard.path slug) :
    fs.named (f.target entry) = fs.named f.assetRoot ++ way slug := by
  rw [named, parts_target h, start_target fs h, List.foldl_append, foldl_walk_way]
  rfl

/-- The directories on the way there are those on the way to the asset root and two below it. -/
theorem passes_target_parent {fs : FileSystem} (h : entry.localPath = standard.path slug) {parent : Path} {place : Place}
    (hparent : (f.target entry).parent? = some parent) (hpasses : fs.Passes parent place) :
    fs.Passes f.assetRoot place ∨ place = fs.named f.assetRoot ++ ["assets"] ∨
      place = fs.named f.assetRoot ++ ["assets", "cards"] := by
  obtain ⟨hsteps, habsolute⟩ := of_parent?_eq_some hparent
  obtain ⟨front, hfront, hplace⟩ := hpasses
  have hstart : fs.start parent = fs.start f.assetRoot := by
    rw [← start_target fs h, start, start, habsolute]
  have hparts : parts (f.target entry) = (parts f.assetRoot ++ ["assets", "cards"]) ++ [fileName slug] := by
    rw [parts_target h, way, List.append_assoc]
    rfl
  have hdot : "." ∉ [fileName slug] := by simpa using (isName_fileName slug).dot.symm
  have hlength : front.length + [fileName slug].length ≤ (steps (f.target entry)).length := by
    have hne : steps (f.target entry) ≠ [] := by
      intro hnone
      rw [parent?_eq, if_pos hnone] at hparent
      cases hparent
    have hpos := List.length_pos_iff.2 hne
    have hle := hfront.length_le
    rw [hsteps, List.length_dropLast] at hle
    rw [List.length_singleton]
    omega
  rw [hsteps] at hfront
  obtain ⟨front', hfront', hwalk⟩ :=
    exists_prefix_of_steps hparts hdot (hfront.trans (List.dropLast_prefix _)) hlength
  rw [hplace, hstart, ← hwalk]
  rcases List.prefix_or_prefix_of_prefix hfront' (List.prefix_append _ _) with hroot | ⟨below, hbelow⟩
  · exact .inl ⟨front', hroot, rfl⟩
  · -- the way has come to the asset root and may go on below it
    subst hbelow
    rw [List.foldl_append]
    have hnamed : (parts f.assetRoot).foldl walk (fs.start f.assetRoot) = fs.named f.assetRoot := rfl
    rw [hnamed]
    have hnames : below ∈ ["assets", "cards"].inits := by
      rw [List.mem_inits]
      exact (List.prefix_append_right_inj _).1 hfront'
    simp only [List.inits, List.map_cons, List.map_nil, List.mem_cons, List.not_mem_nil, or_false] at hnames
    rcases hnames with rfl | rfl | rfl
    · exact .inl (fs.passes_named f.assetRoot)
    · exact .inr (.inl (by simp [walk]))
    · exact .inr (.inr (by simp [walk]))

end ImageFetcher

end CardIndex
