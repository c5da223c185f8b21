import Mathlib.Data.List.Induction
import CallWaiting.Logging.Filter
import CallWaiting.Proofs.Logging.Spelling

/-!
Which directive decides about an event. Of the directives of a list it is the most specific one that
covers the target, and the last of several for one target. The base level is put behind the list as a
directive for all targets, and so it takes the place of one that the list has.
-/

namespace CallWaiting.Logging

open Directive (Lists)

variable {ds : List Directive} {d e : Directive} {target : String} {base : Level} {f : Filter}

structure Directive.Decides (ds : List Directive) (target : String) (d : Directive) : Prop where
  covers : d.covers target = true
  closest : ∀ e ∈ ds, e.covers target = true → e.specificity ≤ d.specificity
  last : (ds.filter (·.target = d.target)).getLast? = some d

/-- The most specific directive that covers the target lets events of the level through; if none covers
it, the base level does. -/
def Directive.Admit (ds : List Directive) (base : Level) (target : String) (level : Level) : Prop :=
  (∃ d, Decides ds target d ∧ d.threshold.admits level = true) ∨
    (∀ d ∈ ds, d.covers target = false) ∧ Threshold.admits (some base) level = true

namespace Directive

lemma covers_congr (h : d.target = e.target) : d.covers target = e.covers target := by
  rw [covers, covers, h]

lemma specificity_congr (h : d.target = e.target) : d.specificity = e.specificity := by
  rw [specificity, specificity, h]

lemma target_eq_of_covers (hd : d.covers target = true) (he : e.covers target = true)
    (h : d.specificity = e.specificity) : d.target = e.target := by
  obtain ⟨_ | s, _⟩ := d <;> obtain ⟨_ | t, _⟩ := e
  · rfl
  · simp [specificity] at h
  · simp [specificity] at h
  · have hs : s.toList <+: target.toList := List.isPrefixOf_iff_prefix.1 hd
    have ht : t.toList <+: target.toList := List.isPrefixOf_iff_prefix.1 he
    have hl : s.toList.length = t.toList.length := by
      rw [String.length_toList, String.length_toList]
      exact Nat.succ.inj h
    have hst : s.toList <+: t.toList := List.prefix_of_prefix_length_le hs ht hl.le
    exact congrArg some (String.toList_injective (hst.eq_of_length hl))

lemma Decides.mem (h : Decides ds target d) : d ∈ ds :=
  (List.mem_filter.1 (List.mem_of_getLast? h.last)).1

lemma Decides.unique (hd : Decides ds target d) (he : Decides ds target e) : d = e := by
  have hs : d.specificity = e.specificity :=
    Nat.le_antisymm (he.closest d hd.mem hd.covers) (hd.closest e he.mem he.covers)
  have ht := target_eq_of_covers hd.covers he.covers hs
  have hl := hd.last
  rw [ht, he.last] at hl
  exact (Option.some.inj hl).symm

lemma Decides.forall_iff {p : Directive → Prop} (h : Decides ds target d) :
    (∀ e, Decides ds target e → p e) ↔ p d :=
  ⟨fun hp => hp d h, fun hp _ he => h.unique he ▸ hp⟩

end Directive

namespace Filter

open Directive (Decides)

lemma closer_cases (d e : Directive) : (closer d e = d ∨ closer d e = e) ∧
    d.specificity ≤ (closer d e).specificity ∧ e.specificity ≤ (closer d e).specificity := by
  rw [closer]
  split
  · exact ⟨.inr rfl, Nat.le_of_lt ‹_›, Nat.le_refl _⟩
  · exact ⟨.inl rfl, Nat.le_refl _, Nat.le_of_not_lt ‹_›⟩

lemma foldl_closer (d : Directive) (ds : List Directive) :
    ds.foldl closer d ∈ d :: ds ∧ ∀ e ∈ d :: ds, e.specificity ≤ (ds.foldl closer d).specificity := by
  induction ds generalizing d with
  | nil => simp
  | cons c ds ih =>
    obtain ⟨hm, hle⟩ := ih (closer d c)
    obtain ⟨hc, hd, he⟩ := closer_cases d c
    have hfirst := hle _ List.mem_cons_self
    rw [List.foldl_cons]
    constructor
    · rcases List.mem_cons.1 hm with hm | hm
      · rw [hm]
        rcases hc with h | h <;> simp [h]
      · exact List.mem_cons_of_mem _ (List.mem_cons_of_mem _ hm)
    · intro e hmem
      simp only [List.mem_cons] at hmem
      rcases hmem with rfl | rfl | hmem
      · exact hd.trans hfirst
      · exact he.trans hfirst
      · exact hle e (List.mem_cons_of_mem _ hmem)

lemma decisive?_some (h : f.decisive? target = some d) :
    d ∈ f ∧ d.covers target = true ∧
      ∀ e ∈ f, e.covers target = true → e.specificity ≤ d.specificity := by
  rw [decisive?] at h
  split at h
  · cases h
  · rename_i c cs hf
    obtain rfl := Option.some.inj h
    obtain ⟨hm, hle⟩ := foldl_closer c cs
    rw [← hf] at hm hle
    refine ⟨(List.mem_filter.1 hm).1, (List.mem_filter.1 hm).2, fun e he hc => ?_⟩
    exact hle e (List.mem_filter.2 ⟨he, hc⟩)

lemma decisive?_none (h : f.decisive? target = none) : ∀ d ∈ f, d.covers target = false := by
  rw [decisive?] at h
  split at h
  · rename_i hf
    simpa using List.filter_eq_nil_iff.1 hf
  · cases h

lemma ofList_concat (ds : List Directive) (d : Directive) : ofList (ds ++ [d]) = (ofList ds).add d := by
  rw [ofList, List.foldl_append]
  rfl

lemma mem_add : e ∈ f.add d ↔ e ∈ f ∧ e.target ≠ d.target ∨ e = d := by
  simp [add]

lemma mem_ofList : e ∈ ofList ds ↔ (ds.filter (·.target = e.target)).getLast? = some e := by
  induction ds using List.reverseRecOn with
  | nil => simp [ofList]
  | append_singleton ds d ih =>
    rw [ofList_concat, mem_add, ih, List.filter_append]
    by_cases ht : d.target = e.target
    · simp [ht, eq_comm]
    · have hne : e ≠ d := by
        rintro rfl
        exact ht rfl
      simp [ht, hne, Ne.symm ht]

lemma exists_mem_ofList (h : e ∈ ds) : ∃ d ∈ ofList ds, d.target = e.target := by
  have hne : ds.filter (·.target = e.target) ≠ [] :=
    List.ne_nil_of_mem (List.mem_filter.2 ⟨h, decide_eq_true rfl⟩)
  have hl := List.getLast?_eq_some_getLast hne
  have ht : ((ds.filter (·.target = e.target)).getLast hne).target = e.target := by
    simpa using (List.mem_filter.1 (List.getLast_mem hne)).2
  refine ⟨_, mem_ofList.2 ?_, ht⟩
  rw [ht]
  exact hl

lemma decides_of_decisive? (h : (ofList ds).decisive? target = some d) : Decides ds target d := by
  obtain ⟨hm, hc, hle⟩ := decisive?_some h
  refine ⟨hc, fun e he hce => ?_, mem_ofList.1 hm⟩
  obtain ⟨e', he', ht⟩ := exists_mem_ofList he
  rw [← Directive.specificity_congr ht]
  exact hle e' he' ((Directive.covers_congr ht).trans hce)

lemma decisive?_ofList_iff : (ofList ds).decisive? target = some d ↔ Decides ds target d := by
  refine ⟨decides_of_decisive?, fun h => ?_⟩
  cases hd : (ofList ds).decisive? target with
  | none =>
    have hc := decisive?_none hd d (mem_ofList.2 h.last)
    rw [h.covers] at hc
    cases hc
  | some e => rw [(decides_of_decisive? hd).unique h]

lemma exists_decides (h : ∃ d ∈ ds, d.covers target = true) : ∃ d, Decides ds target d := by
  obtain ⟨d, hd, hc⟩ := h
  cases hx : (ofList ds).decisive? target with
  | none =>
    obtain ⟨e, he, ht⟩ := exists_mem_ofList hd
    have hn := decisive?_none hx e he
    rw [Directive.covers_congr ht, hc] at hn
    cases hn
  | some e => exact ⟨e, decides_of_decisive? hx⟩

end Filter

namespace Directive

lemma specificity_eq_zero : d.specificity = 0 ↔ d.target = none := by
  rw [specificity]
  split <;> simp [*]

lemma getLast?_concat_of_ne {t : Option String} (h : d.target ≠ t) :
    ((ds ++ [d]).filter (·.target = t)).getLast? = (ds.filter (·.target = t)).getLast? := by
  simp [List.filter_append, h]

lemma getLast?_concat_self :
    ((ds ++ [d]).filter (·.target = d.target)).getLast? = some d := by
  simp [List.filter_append]

lemma Decides.concat (h : Decides ds target d) (ht : d.target ≠ none) (base : Level) :
    Decides (ds ++ [forAll base]) target d := by
  have hb : (forAll base).target ≠ d.target := Ne.symm ht
  refine ⟨h.covers, fun e he hc => ?_, (getLast?_concat_of_ne hb).trans h.last⟩
  rcases List.mem_append.1 he with he | he
  · exact h.closest e he hc
  · obtain rfl := List.mem_singleton.1 he
    exact Nat.zero_le _

lemma decides_forAll (h : ∀ d, Decides ds target d → d.target = none) (base : Level) :
    Decides (ds ++ [forAll base]) target (forAll base) := by
  refine ⟨rfl, fun e he hc => ?_, getLast?_concat_self⟩
  rcases List.mem_append.1 he with he | he
  · obtain ⟨d, hd⟩ := Filter.exists_decides ⟨e, he, hc⟩
    have hle := hd.closest e he hc
    rwa [specificity_eq_zero.2 (h d hd)] at hle
  · obtain rfl := List.mem_singleton.1 he
    exact Nat.le_refl _

lemma Decides.admit_iff (h : Decides ds target d) (base level : Level) :
    Admit ds base target level ↔ d.threshold.admits level = true := by
  constructor
  · rintro (⟨e, he, ha⟩ | ⟨hn, -⟩)
    · rwa [h.unique he]
    · exact absurd h.covers (by rw [hn d h.mem]; nofun)
  · exact fun ha => .inl ⟨d, h, ha⟩

lemma admit_iff_of_not_covered (h : ∀ d ∈ ds, d.covers target = false) (base level : Level) :
    Admit ds base target level ↔ Threshold.admits (some base) level = true := by
  constructor
  · rintro (⟨d, hd, -⟩ | ⟨-, ha⟩)
    · exact absurd hd.covers (by rw [h d hd.mem]; nofun)
    · exact ha
  · exact fun ha => .inr ⟨h, ha⟩

end Directive

open Directive (Decides Admit)

variable {value : String} {s : LogSettings} {l : Logger}

lemma decisive?_install (hv : Lists value ds) (h : install none s value = .ok l) :
    ∃ base, s.level? = .ok base ∧ ∀ target d,
      l.filter.decisive? target = some d ↔ Decides (ds ++ [.forAll base]) target d := by
  rw [install] at h
  cases hb : s.level? with
  | error x =>
    rw [hb] at h
    cases h
  | ok base =>
    rw [hb] at h
    obtain rfl := Except.ok.inj h
    refine ⟨base, rfl, fun target d => ?_⟩
    rw [← Filter.decisive?_ofList_iff, Filter.ofList_concat, Filter.layered,
      Directive.listOfText_of_lists hv]

lemma mem_emitted {es : List Event} {e : Event} (he : e ∈ es)
    (hd : l.filter.decisive? e.target = some d) :
    e ∈ l.emitted es ↔ d.threshold.admits e.level = true := by
  simp [Logger.emitted, he, Filter.admits, hd]

/-- The directives of the environment refine the base level, but for one thing. Where the most specific
of them is for all targets the base level decides in its place: an event is let through as it ought
to be just if the two agree about it. -/
theorem refined_iff (hv : Lists value ds) (h : install none s value = .ok l) :
    ∃ base, s.level? = .ok base ∧ ∀ es, ∀ e ∈ es,
      ((e ∈ l.emitted es ↔ Admit ds base e.target e.level) ↔
        ∀ d, Decides ds e.target d → d.target = none →
          d.threshold.admits e.level = Threshold.admits (some base) e.level) ∧
      ((l.filter.decisive? e.target = some (.forAll base) ↔ ∀ d ∈ ds, d.covers e.target = false) ↔
        ∀ d, Decides ds e.target d → d.target ≠ none) := by
  obtain ⟨base, hb, hl⟩ := decisive?_install hv h
  refine ⟨base, hb, fun es e he => ?_⟩
  by_cases hc : ∃ d ∈ ds, d.covers e.target = true
  · obtain ⟨d, hd⟩ := Filter.exists_decides hc
    have hcovered : ¬ ∀ d ∈ ds, d.covers e.target = false := by simpa using hc
    rw [hd.forall_iff, hd.forall_iff, hd.admit_iff]
    by_cases ht : d.target = none
    · have hbase : l.filter.decisive? e.target = some (.forAll base) :=
        (hl _ _).2 (Directive.decides_forAll (hd.forall_iff.2 ht) base)
      rw [mem_emitted he hbase]
      refine ⟨⟨fun hiff _ => (Bool.eq_iff_iff.2 hiff).symm, fun hx => ?_⟩, ?_⟩
      · rw [hx ht]
        rfl
      · simp [hbase, hcovered, ht]
    · have hdec : l.filter.decisive? e.target = some d := (hl _ _).2 (hd.concat ht base)
      have hne : d ≠ .forAll base := by
        rintro rfl
        exact ht rfl
      rw [mem_emitted he hdec]
      simp [hdec, hcovered, ht, hne]
  · have hn : ∀ d ∈ ds, d.covers e.target = false := by simpa using hc
    have hnone : ∀ d, ¬ Decides ds e.target d := fun d hd => hc ⟨d, hd.mem, hd.covers⟩
    have hbase : l.filter.decisive? e.target = some (.forAll base) :=
      (hl _ _).2 (Directive.decides_forAll (fun d hd => absurd hd (hnone d)) base)
    rw [mem_emitted he hbase, Directive.admit_iff_of_not_covered hn]
    exact ⟨iff_of_true Iff.rfl fun d hd => absurd hd (hnone d),
      iff_of_true (iff_of_true hbase hn) fun d hd => absurd hd (hnone d)⟩

theorem refined_within_target :
    let ds : List Directive :=
      [⟨some "call_waiting", some .warn⟩, ⟨some "call_waiting::store", some .trace⟩]
    let value := "call_waiting=warn,call_waiting::store=TRACE"
    let l : Logger := ⟨.layered value .info, false, false⟩
    Lists value ds ∧ install none .default value = .ok l ∧
      ∀ es, ∀ e ∈ es, e ∈ l.emitted es ↔ Admit ds .info e.target e.level := by
  intro ds value l
  have hv : Lists value ds := by
    refine ⟨["call_waiting".toList ++ '=' :: "warn".toList,
      "call_waiting::store".toList ++ '=' :: "TRACE".toList], .cons ?_ (.cons ?_ .nil), by decide⟩
    · exact .target (by decide) (.inl (by decide))
    · exact .target (by decide) (.inl (by decide))
  refine ⟨hv, rfl, fun es e he => ?_⟩
  obtain ⟨base, hb, hr⟩ := refined_iff hv (s := .default) (l := l) rfl
  obtain rfl : .info = base := Except.ok.inj hb
  refine (hr es e he).1.2 fun d hd ht => ?_
  have hm : ∀ d ∈ ds, d.target ≠ none := by decide
  exact absurd ht (hm d hd.mem)

theorem not_refined_by_level :
    let ds : List Directive := [⟨none, some .trace⟩]
    let e : Event := ⟨"call_waiting", .trace, "loaded"⟩
    let l : Logger := ⟨.layered "trace" .info, false, false⟩
    Lists "trace" ds ∧ install none .default "trace" = .ok l ∧
      Admit ds .info e.target e.level ∧ e ∉ l.emitted [e] := by
  intro ds e l
  have hd : Decides ds e.target ⟨none, some .trace⟩ := ⟨rfl, by decide, rfl⟩
  have hv : Lists "trace" ds :=
    ⟨["trace".toList], .cons (.level (.inl (by decide))) .nil, by decide⟩
  refine ⟨hv, rfl, .inl ⟨_, hd, rfl⟩, ?_⟩
  have he : l.emitted [e] = [] := rfl
  rw [he]
  exact List.not_mem_nil

end CallWaiting.Logging
