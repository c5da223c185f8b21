import CallWaiting.Preference.Store
import CallWaiting.Proofs.Preference.File

namespace CallWaiting.Preference.Store

variable {s : Store} {fs : FileSystem} {b : Batch}

def IsOpened (fs : FileSystem) : Store → Prop
  | memory _ => True
  | file f => File.load fs f.path = .ok f

lemma get?_put (h : (s.put fs b).2.2 = .ok ()) (group : String) (k : Key) :
    (s.put fs b).2.1.get? group k = (b.value? group k).or (s.get? group k) := by
  cases s with
  | memory m => exact Memory.get?_put m b group k
  | file f =>
    rcases hr : f.put fs b with ⟨fs', f', r⟩
    simp only [put, hr] at h ⊢
    subst h
    exact File.get?_put hr group k

lemma put_error {e : Error} (h : (s.put fs b).2.2 = .error e) : (s.put fs b).2.1 = s := by
  cases s with
  | memory m => cases h
  | file f =>
    rcases hr : f.put fs b with ⟨fs', f', r⟩
    simp only [put, hr] at h ⊢
    subst h
    rw [File.put_error hr]

lemma isOpened_put (h : (s.put fs b).2.2 = .ok ()) :
    (s.put fs b).2.1.IsOpened (s.put fs b).1 := by
  cases s with
  | memory m => trivial
  | file f =>
    rcases hr : f.put fs b with ⟨fs', f', r⟩
    simp only [put, hr] at h ⊢
    subst h
    exact (File.load_put hr).1

end CallWaiting.Preference.Store

namespace CallWaiting

theorem Settings.isOpened_openStore {s : Settings} {fs : FileSystem} {store : Preference.Store}
    (h : s.openStore fs = .ok store) : store.IsOpened fs := by
  rw [openStore] at h
  cases hp : s.storePath with
  | none =>
    rw [hp] at h
    cases h
    trivial
  | some path =>
    rw [hp] at h
    cases hl : Preference.File.load fs ⟨path⟩ with
    | error e => simp [hl, Except.map] at h
    | ok f =>
      simp only [hl, Except.map] at h
      cases h
      have hf : f.path = ⟨path⟩ := Preference.File.load_path hl
      simpa only [Preference.Store.IsOpened, hf] using hl

end CallWaiting
