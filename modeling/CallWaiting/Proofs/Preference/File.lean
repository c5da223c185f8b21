import CallWaiting.Preference.File
import CallWaiting.Proofs.FileSystem.Walk
import CallWaiting.Proofs.Preference.Document
import CallWaiting.Proofs.Preference.Lookup

namespace CallWaiting

namespace FileSystem

variable {fs fs' : FileSystem} {p q : Path} {content : ByteArray}

lemma locate_write (h : fs.write p content = .ok fs') :
    ∃ l, fs'.locate p = .ok l ∧ fs'.entry? l = some (.file content) := by
  obtain ⟨l, hl, he, rfl⟩ := write_eq_put h
  have hn : l ≠ [] := by
    rintro rfl
    exact he rfl
  exact ⟨l, (keeps_put he _).locate hl, by rw [entry?_put hn, if_pos rfl]⟩

lemma read_rename {l : Location} (hl : fs.locate p = .ok l)
    (hf : fs.entry? l = some (.file content)) (h : fs.rename p q = .ok fs') :
    fs'.read q = .ok content := by
  obtain ⟨s, t, c, hs, ht, hc, he, hq, rfl⟩ := rename_eq_put h
  obtain rfl := Except.ok.inj (hl.symm.trans hs)
  obtain rfl := Entry.file.inj (Option.some.inj (hf.symm.trans hc))
  have hn : t ≠ [] := by
    rintro rfl
    exact he rfl
  have hkl : Keeps fs (fs.erase l) := keeps_erase (by simp [hf])
  have het : FileSystem.entry? (fs.erase l) t ≠ some .directory := by
    intro hd
    apply he
    have hw : isWithin t l = false := by
      rw [Bool.eq_false_iff]
      intro hw
      simp [entry?_erase_within hn hw] at hd
    rwa [entry?_erase hw] at hd
  have hlt := (hkl.trans (keeps_put het (.file content))).locate ht
  simp [read, hlt, entry?_put hn, hq, bind, Except.bind]

end FileSystem

namespace Preference.File

variable {fs fs' : FileSystem} {f f' : File} {b : Batch}

lemma load_path {p : FileSystem.Path} (h : load fs p = .ok f) : f.path = p := by
  rw [load] at h
  split at h
  case h_1 =>
    split at h
    · cases h
      rfl
    · split at h <;> cases h
      rfl
  case h_2 =>
    cases h
    rfl
  case h_3 => cases h

lemma read_performAll {p : FileSystem.Path} {d : Document}
    (h : performAll fs (steps p d) = (fs', .ok ())) : fs'.read p = .ok d.encode := by
  simp only [steps, performAll, Step.perform] at h
  split at h
  case h_2 => cases h
  case h_1 hm =>
    split at h
    case h_2 => cases h
    case h_1 hw =>
      obtain ⟨l, hl, hf⟩ := FileSystem.locate_write hw
      split at h
      case h_2 => cases h
      case h_1 hr =>
        cases h
        exact FileSystem.read_rename hl hf hr

lemma put_ok (h : f.put fs b = (fs', f', .ok ())) :
    performAll fs (steps f.path (f.document.apply b)) = (fs', .ok ()) ∧
      f' = ⟨f.path, f.document.apply b⟩ := by
  simp only [put] at h
  split at h <;> cases h
  rename_i hp
  exact ⟨hp, rfl⟩

lemma put_error {e : Error} (h : f.put fs b = (fs', f', .error e)) : f' = f := by
  simp only [put] at h
  split at h <;> cases h
  rfl

lemma load_of_read {p : FileSystem.Path} {d : Document} (h : fs.read p = .ok d.encode) :
    load fs p = .ok ⟨p, d⟩ := by
  rw [load, h]
  simp only [if_neg (Document.encode_size_ne_zero d), Document.decode?_encode]

theorem load_put (h : f.put fs b = (fs', f', .ok ())) :
    load fs' f'.path = .ok f' ∧ f'.path = f.path := by
  obtain ⟨hp, rfl⟩ := put_ok h
  exact ⟨load_of_read (read_performAll hp), rfl⟩

lemma get?_put (h : f.put fs b = (fs', f', .ok ())) (group : String) (k : Key) :
    f'.get? group k = (b.value? group k).or (f.get? group k) := by
  obtain ⟨-, rfl⟩ := put_ok h
  exact Document.get?_apply f.document b group k

end Preference.File

end CallWaiting
