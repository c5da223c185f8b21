import Mathlib.Tactic.Lemma
import CallWaiting.FileSystem.Basic

namespace CallWaiting.FileSystem

variable {fs fs' : FileSystem} {p q : Path} {c : ByteArray}

lemma entry?_put {l : Location} (hl : l ≠ []) (e : Entry) (l' : Location) :
    entry? (fs.put l e) l' = if l = l' then some e else fs.entry? l' := by
  simp only [ entry?, put, Std.ExtTreeMap.getElem?_insert, Std.compare_eq_iff_eq]
  by_cases hh : l = l'
  · subst hh
    simp [hl]
  · simp [hh]

lemma entry?_erase {l l' : Location} (h : isWithin l' l = false) :
    entry? (fs.erase l) l' = fs.entry? l' := by
  simp only [ entry?, erase, Std.ExtTreeMap.getElem?_filter']
  cases hg : fs.entries[l']? <;> simp [h, Option.filter]

lemma entry?_erase_within {l l' : Location} (hn : l' ≠ []) (h : isWithin l' l = true) :
    entry? (fs.erase l) l' = none := by
  simp only [ entry?, erase, Std.ExtTreeMap.getElem?_filter']
  cases hg : fs.entries[l']? <;> simp [h, hn, Option.filter]

def Rooted (fs : FileSystem) (l : Location) : Prop :=
  ∀ p, p <+: l → p ≠ l → fs.entry? p = some .directory

def Keeps (fs fs' : FileSystem) : Prop :=
  ∀ l, fs.Rooted l → fs.entry? l = some .directory → fs'.entry? l = some .directory

lemma rooted_nil (fs : FileSystem) : fs.Rooted [] := by
  intro p hp hn
  exact absurd (List.prefix_nil.1 hp) hn

lemma Rooted.advance {l l' : Location} {part : String} (hl : fs.Rooted l)
    (h : fs.advance l part = .ok l') : fs.entry? l = some .directory ∧ fs.Rooted l' := by
  rw [FileSystem.advance] at h
  split at h
  case h_1 | h_2 => cases h
  case h_3 he =>
    refine ⟨he, ?_⟩
    have hd : ∀ p, p <+: l → fs.entry? p = some .directory := by
      intro p hp
      by_cases hpl : p = l
      · exact hpl ▸ he
      · exact hl p hp hpl
    cases h
    intro p hp hn
    split at hp <;> rename_i hu
    · exact hd p (hp.trans (List.dropLast_prefix l))
    · rw [if_neg hu] at hn
      exact hd p ((List.prefix_concat_iff.1 hp).resolve_left hn)

lemma Keeps.walk (hk : Keeps fs fs') {l t : Location} {ps : List String} (hl : fs.Rooted l)
    (h : fs.walk l ps = .ok t) : fs'.walk l ps = .ok t ∧ fs.Rooted t := by
  induction ps generalizing l with
  | nil =>
    cases h
    exact ⟨rfl, hl⟩
  | cons part ps ih =>
    rw [FileSystem.walk] at h
    cases ha : fs.advance l part with
    | error f => simp [ha, bind, Except.bind] at h
    | ok l' =>
      obtain ⟨he, hl'⟩ := hl.advance ha
      have ha' : fs'.advance l part = .ok l' := by
        rw [← ha]
        simp only [FileSystem.advance, he, hk l hl he]
      have hw : fs.walk l' ps = .ok t := by simpa [ha, bind, Except.bind] using h
      obtain ⟨hh, ht⟩ := ih hl' hw
      exact ⟨by simpa [FileSystem.walk, ha', bind, Except.bind] using hh, ht⟩

lemma Keeps.locate (hk : Keeps fs fs') {p : Path} {t : Location} (h : fs.locate p = .ok t) :
    fs'.locate p = .ok t := by
  rw [FileSystem.locate] at h ⊢
  split at h <;> rename_i hp
  · cases h
  · rw [if_neg hp]
    exact (hk.walk (rooted_nil fs) h).1

lemma keeps_put {l : Location} (hl : fs.entry? l ≠ some .directory) (e : Entry) :
    Keeps fs (fs.put l e) := by
  intro d _ hd
  have hn : l ≠ [] := by
    rintro rfl
    exact hl rfl
  have hld : l ≠ d := by
    rintro rfl
    exact hl hd
  rw [entry?_put hn, if_neg hld, hd]

lemma keeps_erase {l : Location} (hl : fs.entry? l ≠ some .directory) : Keeps fs (fs.erase l) := by
  intro d hr hd
  have hw : isWithin d l = false := by
    rw [Bool.eq_false_iff]
    intro hw
    have hp : l <+: d := List.isPrefixOf_iff_prefix.1 hw
    by_cases hld : l = d
    · exact hl (hld ▸ hd)
    · exact hl (hr l hp hld)
  rw [entry?_erase hw, hd]

lemma Keeps.rooted (hk : Keeps fs fs') {l : Location} (hl : fs.Rooted l) : fs'.Rooted l := by
  intro p hp hn
  refine hk p (fun q hq hqp => hl q (hq.trans hp) ?_) (hl p hp hn)
  rintro rfl
  exact hn (hp.eq_of_length_le hq.length_le)

lemma Keeps.trans {fs'' : FileSystem} (hk : Keeps fs fs') (hk' : Keeps fs' fs'') :
    Keeps fs fs'' := fun l hl hd => hk' l (hk.rooted hl) (hk l hl hd)

lemma write_eq_put (h : fs.write p c = .ok fs') : ∃ l, fs.locate p = .ok l ∧
    fs.entry? l ≠ some .directory ∧ fs' = fs.put l (.file c) := by
  rw [write] at h
  cases hl : fs.locate p with
  | error f => simp [hl, bind, Except.bind] at h
  | ok l =>
    simp only [hl, bind, Except.bind] at h
    refine ⟨l, rfl, ?_⟩
    split at h
    case h_1 => cases h
    case h_2 he | h_3 he =>
      split at h
      · cases h
      · cases h
        exact ⟨by simp [he], rfl⟩

lemma rename_eq_put (h : fs.rename p q = .ok fs') : ∃ s t c, fs.locate p = .ok s ∧
    fs.locate q = .ok t ∧ fs.entry? s = some (.file c) ∧ fs.entry? t ≠ some .directory ∧
      q.asksDirectory = false ∧ fs' = (fs.erase s).put t (.file c) := by
  rw [rename] at h
  cases hs : fs.locate p with
  | error f => simp [hs, bind, Except.bind] at h
  | ok s =>
    cases ht : fs.locate q with
    | error f => simp [hs, ht, bind, Except.bind] at h
    | ok t =>
      simp only [hs, ht, bind, Except.bind] at h
      split at h
      case h_1 | h_2 => cases h
      case h_3 => split at h <;> cases h
      case h_4 c he hd =>
        split at h
        · cases h
        · rename_i hq
          cases h
          exact ⟨s, t, c, rfl, rfl, he, fun hh => hd hh, by simpa using hq, rfl⟩

end CallWaiting.FileSystem
