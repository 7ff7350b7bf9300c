import CardIndex.Proofs.Dataset.Files
import CardIndex.Proofs.Json.Denotation

namespace CardIndex

open Json (Value Denotes LastMember)

namespace Dump

/-- The text is JSON for an object that ends with these names and rows. Its other members do not matter. -/
structure Written (text : String) (dump : Dump) : Prop where
  names : LastMember text "names" (.array (dump.names.map .string))
  data : LastMember text "data" (.array (dump.rows.map .array))

/-- The text is JSON for an object, and the last member of that name is an array. -/
def HasArray (text name : String) : Prop := ∃ items, LastMember text name (.array items)

theorem strings?_eq_some_iff (values : List Value) (names : List String) :
    strings? values = some names ↔ values = names.map .string := by
  refine mapM_eq_some_iff (fun v s => ?_) values names
  cases v <;> simp

theorem rows?_eq_some_iff (values : List Value) (rows : List (List Value)) :
    rows? values = some rows ↔ values = rows.map .array := by
  refine mapM_eq_some_iff (fun v cells => ?_) values rows
  cases v <;> simp

theorem ofText_of_written {text : String} {dump : Dump} (h : Written text dump) : ofText text = .ok dump := by
  obtain ⟨v, hv, hnames⟩ := (Value.lastMember_iff _ _ _).1 h.names
  obtain ⟨v', hv', hdata⟩ := (Value.lastMember_iff _ _ _).1 h.data
  obtain rfl := Option.some.inj (hv.symm.trans hv')
  simp only [ofText, hv, hnames, hdata, (strings?_eq_some_iff _ _).2 rfl, (rows?_eq_some_iff _ _).2 rfl]

/-- Both members are arrays, but something in them is no text or no row. -/
theorem ofText_of_wrong_elements {text : String} (hnames : HasArray text "names") (hdata : HasArray text "data")
    (h : ∀ dump, ¬ Written text dump) : ofText text = .error .malformed := by
  obtain ⟨names, hnames⟩ := hnames
  obtain ⟨data, hdata⟩ := hdata
  obtain ⟨v, hv, hv_names⟩ := (Value.lastMember_iff _ _ _).1 hnames
  obtain ⟨v', hv', hv_data⟩ := (Value.lastMember_iff _ _ _).1 hdata
  obtain rfl := Option.some.inj (hv.symm.trans hv')
  simp only [ofText, hv, hv_names, hv_data]
  split
  · rename_i hstrings hrows
    rw [(strings?_eq_some_iff _ _).1 hstrings] at hnames
    rw [(rows?_eq_some_iff _ _).1 hrows] at hdata
    exact absurd ⟨hnames, hdata⟩ (h ⟨_, _⟩)
  · rfl

theorem ofText_of_invalid {text : String} (h : ∀ v, ¬ Denotes text v) : ofText text = .error .malformed := by
  have hnone : Value.ofText? text = none := by
    refine Option.eq_none_iff_forall_not_mem.2 fun v hv => h v ?_
    exact (Value.ofText?_eq_some_iff text v).1 hv
  rw [ofText, hnone]

theorem ofText_of_no_names {text : String} {v : Value} (hv : Denotes text v) (h : ¬ HasArray text "names") :
    ofText text = .error (.missingArray "names") := by
  have hv := (Value.ofText?_eq_some_iff text v).2 hv
  have hnames : ∀ items, v.member? "names" ≠ some (.array items) := fun items hitems =>
    h ⟨items, (Value.lastMember_iff _ _ _).2 ⟨v, hv, hitems⟩⟩
  simp only [ofText, hv]
  split
  · rename_i hitems _
    exact absurd hitems (hnames _)
  · rename_i hitems _
    exact absurd hitems (hnames _)
  · rfl

theorem ofText_of_no_data {text : String} (hnames : HasArray text "names") (h : ¬ HasArray text "data") :
    ofText text = .error (.missingArray "data") := by
  obtain ⟨names, hnames⟩ := hnames
  obtain ⟨v, hv, hnames⟩ := (Value.lastMember_iff _ _ _).1 hnames
  have hdata : ∀ items, v.member? "data" ≠ some (.array items) := fun items hitems =>
    h ⟨items, (Value.lastMember_iff _ _ _).2 ⟨v, hv, hitems⟩⟩
  -- By `hdata` the arm for two arrays is not taken, and the next one is.
  simp only [ofText, hv, hnames]

def Fault.failure (path : Path) : Fault → Failure
  | missingArray member => .malformedInput path (some member)
  | malformed => .malformedInput path none

/-- What reading a dump from a file with that content ends with. -/
inductive Reading (path : Path) (content : ByteArray) : Except Failure Dump → Prop
  | accepted {text : String} {dump : Dump} (htext : content = text.toUTF8) (h : Written text dump) :
    Reading path content (.ok dump)
  | noText (h : ∀ text : String, content ≠ text.toUTF8) : Reading path content (.error (.io .invalidText))
  | noNames {text : String} {v : Value} (htext : content = text.toUTF8) (hvalid : Denotes text v)
    (h : ¬ HasArray text "names") : Reading path content (.error (.malformedInput path (some "names")))
  | noData {text : String} (htext : content = text.toUTF8) (hnames : HasArray text "names")
    (h : ¬ HasArray text "data") : Reading path content (.error (.malformedInput path (some "data")))
  | invalid {text : String} (htext : content = text.toUTF8) (h : ∀ v, ¬ Denotes text v) :
    Reading path content (.error (.malformedInput path none))
  | wrongElements {text : String} (htext : content = text.toUTF8) (hnames : HasArray text "names")
    (hdata : HasArray text "data") (h : ∀ dump, ¬ Written text dump) :
    Reading path content (.error (.malformedInput path none))

theorem exists_reading (path : Path) (content : ByteArray) : ∃ r, Reading path content r := by
  by_cases htext : ∃ text : String, content = text.toUTF8
  · obtain ⟨text, htext⟩ := htext
    by_cases hvalid : ∃ v, Denotes text v
    · obtain ⟨v, hvalid⟩ := hvalid
      by_cases hnames : HasArray text "names"
      · by_cases hdata : HasArray text "data"
        · by_cases hdump : ∃ dump, Written text dump
          · obtain ⟨dump, hdump⟩ := hdump
            exact ⟨_, .accepted htext hdump⟩
          · exact ⟨_, .wrongElements htext hnames hdata fun dump h => hdump ⟨dump, h⟩⟩
        · exact ⟨_, .noData htext hnames hdata⟩
      · exact ⟨_, .noNames htext hvalid hnames⟩
    · exact ⟨_, .invalid htext fun v h => hvalid ⟨v, h⟩⟩
  · exact ⟨_, .noText fun text h => htext ⟨text, h⟩⟩

end Dump

/-- A file with a text in it ends the reading of a dump as the text does, and is only looked at. -/
theorem readDump_of_text {path : Path} {content : ByteArray} {w : World} {text : String} {x : Except Dump.Fault Dump}
    (hread : w.files.read path = .ok content) (htext : content = text.toUTF8) (h : Dump.ofText text = x) :
    (readDump path : Attempt (StateM World) Dump).Ends w (x.mapError (Dump.Fault.failure path)) w := by
  subst htext h
  rw [readDump, Attempt.ends_bind]
  refine .inl ⟨text, w, readInput_of_written path w text hread, ?_⟩
  rcases Dump.ofText text with (member | _) | dump <;> rfl

theorem Dump.Reading.ends {path : Path} {content : ByteArray} {r : Except Failure Dump} {w : World}
    (h : Dump.Reading path content r) (hread : w.files.read path = .ok content) :
    (readDump path : Attempt (StateM World) Dump).Ends w r w := by
  cases h with
  | accepted htext h => exact readDump_of_text hread htext (Dump.ofText_of_written h)
  | noText h =>
    have hinput := readInput_ends path w content hread
    rw [FileSystem.decode_of_no_text h] at hinput
    rw [readDump, Attempt.ends_bind]
    exact .inr ⟨_, hinput, rfl⟩
  | noNames htext hvalid h => exact readDump_of_text hread htext (Dump.ofText_of_no_names hvalid h)
  | noData htext hnames h => exact readDump_of_text hread htext (Dump.ofText_of_no_data hnames h)
  | invalid htext h => exact readDump_of_text hread htext (Dump.ofText_of_invalid h)
  | wrongElements htext hnames hdata h =>
    exact readDump_of_text hread htext (Dump.ofText_of_wrong_elements hnames hdata h)

theorem fullMessage_missingArray (path member words text : String) (h : ": missing `" ++ member ++ "` array" = text) :
    (Failure.malformedInput path (some member)).fullMessage words = "Malformed input: " ++ path ++ text := by
  subst h
  show "Malformed input: " ++ path ++ ": missing `" ++ member ++ "` array" = _
  simp only [String.append_assoc]

/-- A raw file is read as the dump that it holds, and if it holds none the failure is the one for the reason. What a
missing array is reported with is known in full; on any other malformed text the words of the library that read it come
behind the path. -/
theorem readDump_exact (path : Path) (content : ByteArray) (w : World) (hfile : w.files.read path = .ok content) :
    (∀ r w', (readDump path : Attempt (StateM World) Dump).Ends w r w' ↔ Dump.Reading path content r ∧ w' = w) ∧
      ∀ words, (Failure.malformedInput path (some "names")).fullMessage words =
          "Malformed input: " ++ path ++ ": missing `names` array" ∧
        (Failure.malformedInput path (some "data")).fullMessage words =
          "Malformed input: " ++ path ++ ": missing `data` array" ∧
        (Failure.malformedInput path none).fullMessage words = "Malformed input: " ++ path ++ ": " ++ words := by
  have hends (r : Except Failure Dump) (w' : World) :
      (readDump path : Attempt (StateM World) Dump).Ends w r w' ↔ Dump.Reading path content r ∧ w' = w := by
    constructor
    · intro hends
      obtain ⟨r', hreading⟩ := Dump.exists_reading path content
      obtain ⟨rfl, rfl⟩ := Prod.mk.inj ((hreading.ends hfile).symm.trans hends)
      exact ⟨hreading, rfl⟩
    · rintro ⟨hreading, rfl⟩
      exact hreading.ends hfile
  refine ⟨hends, fun words => ⟨?_, ?_, rfl⟩⟩
  · exact fullMessage_missingArray path "names" words _ (by decide)
  · exact fullMessage_missingArray path "data" words _ (by decide)

/-- Members come twice, inside others and with an escape in their name, and white space is anywhere. -/
theorem readDump_exact_of_repeated_members :
    let text := " \x7b\"names\": 7, \"data\":[[1,\t\"a\"] , []],\n\"x\":\x7b\"names\":[]\x7d, \"n\\u0061mes\":[\"id\"]\x7d"
    let w := World.gallery [(["raw.json"], .file text.toUTF8)] []
    w.files.read "raw.json" = .ok text.toUTF8 ∧ ∃ dump, Dump.Reading "raw.json" text.toUTF8 (.ok dump) ∧
      dump.names = ["id"] ∧ dump.rows.map (·.map Value.compactText) = [["1", "\"a\""], []] := by
  intro text w
  have hfile : w.files.read "raw.json" = .ok text.toUTF8 := by rfl
  have hparts : (Dump.ofText text).toOption.map (fun dump => (dump.names, dump.rows.map (·.map Value.compactText))) =
      some (["id"], [["1", "\"a\""], []]) := by decide +kernel
  obtain ⟨dump, hdump, hshown⟩ := Option.map_eq_some_iff.1 hparts
  obtain ⟨hnames, hrows⟩ := Prod.mk.inj hshown
  have hends := readDump_of_text hfile rfl (eq_ok_of_toOption hdump)
  exact ⟨hfile, dump, (((readDump_exact "raw.json" text.toUTF8 w hfile).1 _ _).1 hends).1, hnames, hrows⟩

end CardIndex
