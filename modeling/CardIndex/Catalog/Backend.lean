import CardIndex.Catalog.Store

namespace CardIndex

namespace Backend

def file : String := "file"

def libsql : String := "libsql"

/-- The names that the settings may give as the store's backend. -/
def known : List String := [file, libsql]

/-- The store of a backend. Tables in a database are not part of this library. -/
def openStore (backend : String) (root : Path) (region : String) : Except SettingsFault FileStore :=
  if backend = file then .ok ⟨root, region⟩
  else if backend = libsql then .error .backendLeftOut
  else .error (.unknownBackend backend known)

end Backend

end CardIndex
