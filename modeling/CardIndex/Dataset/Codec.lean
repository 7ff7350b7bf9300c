import CardIndex.Card.Codec
import CardIndex.Dataset.Basic
import CardIndex.Timestamp.Text

namespace CardIndex

open Json (Tree)
open Json.Tree

namespace Timestamp

def toTree (t : Timestamp) : Tree := Tree.text t.text

def ofTree? (t : Tree) : Option Timestamp := t.text?.bind ofText?

end Timestamp

namespace Dataset

def toTree (d : Dataset) : Tree := record [
  ("generatedAt", d.generatedAt.toTree),
  ("totalCards", natural d.totalCards),
  ("cards", list Card.toTree d.cards)]

def ofTree? (t : Tree) : Option Dataset := do
  let fields ← t.fields? ["generatedAt", "totalCards", "cards"]
  some {
    generatedAt := ← fields.required "generatedAt" Timestamp.ofTree?
    totalCards := ← fields.required "totalCards" natural?
    cards := ← fields.required "cards" (list? Card.ofTree?) }

end Dataset

namespace ManifestEntry

def toTree (e : ManifestEntry) : Tree := record [
  ("id", text e.id),
  ("name", optional text e.name),
  ("remote", optional text e.remote),
  ("localPath", text e.localPath)]

def ofTree? (t : Tree) : Option ManifestEntry := do
  let fields ← t.fields? ["id", "name", "remote", "localPath"]
  some {
    id := ← fields.required "id" text?
    name := ← fields.nullable "name" text?
    remote := ← fields.nullable "remote" text?
    localPath := ← fields.required "localPath" text? }

end ManifestEntry

end CardIndex
