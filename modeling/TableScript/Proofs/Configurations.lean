import TableScript.Config
import TableScript.Proofs.Exec

/-!
# Which configurations can be read

There are defaults for sections that are left out, but the section on the store has none for how
long sessions are kept. So a configuration that can be read has that section, with all its entries
(`Config.store_of_load`).
-/

namespace TableScript.Config

theorem ok_of_mapError {ε α : Type} {f : ε → Problem} {x : Except ε α} {a : α}
    (h : x.mapError f = .ok a) : x = .ok a := by
  cases x with
  | error e => cases h
  | ok b =>
    cases h
    rfl

theorem readStore_eq_ok {root : List (String × Yaml)} {c : StoreConfig}
    (h : readStore root = .ok c) :
    ∃ v, Yaml.find? root "redis" = some v ∧ entry "host" v = .ok c.host ∧
      entry "port" v = .ok c.port ∧ entry "db" v = .ok c.database ∧
      entry "expire_seconds" v = .ok c.expiry := by
  rw [readStore, sectionOf] at h
  cases hv : Yaml.find? root "redis" with
  | none =>
    rw [hv] at h
    cases h
  | some v =>
    rw [hv] at h
    obtain ⟨host, hhost, h⟩ := Except.ok_of_bind h
    obtain ⟨port, hport, h⟩ := Except.ok_of_bind h
    obtain ⟨database, hdatabase, h⟩ := Except.ok_of_bind h
    obtain ⟨expiry, hexpiry, h⟩ := Except.ok_of_bind h
    cases h
    exact ⟨v, rfl, hhost, hport, hdatabase, hexpiry⟩

/-- A configuration that can be read is in a file that holds a mapping with a section on the store,
and what it says about the store is what is said there. -/
theorem store_of_load {d : Disk} {contained : Bool} {c : Config} (h : load d contained = .ok c) :
    ∃ raw root v, d.read (filePath d.homePath contained) = .ok raw ∧
      Yaml.parse raw = .ok (.mapping root) ∧ Yaml.find? root "redis" = some v ∧
      entry "host" v = .ok c.store.host ∧ entry "port" v = .ok c.store.port ∧
      entry "db" v = .ok c.store.database ∧ entry "expire_seconds" v = .ok c.store.expiry := by
  obtain ⟨raw, hraw, h⟩ := Except.ok_of_bind h
  obtain ⟨yaml, hyaml, h⟩ := Except.ok_of_bind h
  cases yaml with
  | mapping root =>
    obtain ⟨models, -, h⟩ := Except.ok_of_bind h
    obtain ⟨files, -, h⟩ := Except.ok_of_bind h
    obtain ⟨interval, -, h⟩ := Except.ok_of_bind h
    obtain ⟨store, hstore, h⟩ := Except.ok_of_bind h
    cases h
    obtain ⟨v, hv, hentries⟩ := readStore_eq_ok hstore
    exact ⟨raw, root, v, ok_of_mapError hraw, ok_of_mapError hyaml, hv, hentries⟩
  | _ => cases h

end TableScript.Config
