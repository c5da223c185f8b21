import CallWaiting.Proofs.Service.Ledger

namespace CallWaiting

open Controller (Operation Answer)

def operations : List Entry → List Operation
  | [] => []
  | ⟨.perform op, _⟩ :: es => op :: operations es
  | ⟨.shutdown, _⟩ :: _ => []

namespace Service

variable {s : Service} {log done rest : List Entry} {calls : List (Operation × Option Answer)}
  {replies : List (Nat × Answer)} {n : Nat} {a : Answer}

lemma Performed.operations (h : Performed done calls replies) (rest : List Entry) :
    operations (done ++ rest) = calls.map (·.1) ++ CallWaiting.operations rest := by
  induction h generalizing rest with
  | nil => rfl
  | snoc h op w a ih =>
    rw [List.append_assoc, ih, List.map_append, List.append_assoc]
    rfl

lemma Performed.length (h : Performed done calls replies) : done.length = calls.length := by
  induction h with
  | nil => rfl
  | snoc h op w a ih => simp only [List.length_append, ih, List.length_singleton]

lemma Performed.no_shutdown (h : Performed done calls replies) :
    ∀ e ∈ done, e.command ≠ .shutdown := by
  induction h with
  | nil => simp
  | snoc h op w a ih =>
    intro e he
    obtain he | he := List.mem_append.1 he
    · exact ih e he
    · rw [List.mem_singleton.1 he]
      nofun

lemma Performed.numbers (h : Performed done calls replies) :
    replies.map (·.1) = done.filterMap (·.waiting) := by
  induction h with
  | nil => rfl
  | snoc h op w a ih =>
    rw [List.map_append, List.filterMap_append, ih]
    cases w <;> rfl

lemma Performed.reply (h : Performed done calls replies) {k : Nat} {op : Operation}
    (hk : done[k]? = some ⟨.perform op, some n⟩) :
    ∃ a, calls[k]? = some (op, some a) ∧ (n, a) ∈ replies := by
  induction h with
  | nil => simp at hk
  | snoc h op' w a ih =>
    obtain hlt | hle := Nat.lt_or_ge k (List.length _)
    · rw [List.getElem?_append_left hlt] at hk
      obtain ⟨b, hc, hr⟩ := ih hk
      rw [h.length] at hlt
      exact ⟨b, (List.getElem?_append_left hlt).trans hc, List.mem_append_left _ hr⟩
    · rw [List.getElem?_append_right hle, List.getElem?_singleton] at hk
      split at hk
      · rename_i hz
        cases hk
        rw [h.length] at hle hz
        refine ⟨a, ?_, List.mem_append_right _ (by simp)⟩
        rw [List.getElem?_append_right hle, hz]
        rfl
      · cases hk

lemma filter_of_not_mem {replies : List (Nat × Answer)} (hn : n ∉ replies.map (·.1)) :
    replies.filter (·.1 = n) = [] := by
  rw [List.filter_eq_nil_iff]
  intro r hr hrn
  exact hn (List.mem_map.2 ⟨r, hr, by simpa using hrn⟩)

lemma filter_of_mem {replies : List (Nat × Answer)} (hd : (replies.map (·.1)).Nodup)
    (hm : (n, a) ∈ replies) : replies.filter (·.1 = n) = [(n, a)] := by
  induction replies with
  | nil => cases hm
  | cons r rs ih =>
    obtain ⟨hr, hd⟩ := List.nodup_cons.1 hd
    obtain rfl | hm := List.mem_cons.1 hm
    · simp [filter_of_not_mem hr]
    · have hn : r.1 ≠ n := by
        rintro rfl
        exact hr (List.mem_map.2 ⟨_, hm, rfl⟩)
      rw [List.filter_cons_of_neg (by simpa using hn), ih hd hm]

lemma reply?_eq_head? (s : Service) (n : Nat) :
    s.reply? n = (s.replies.filter (·.1 = n)).head?.map (·.2) := by
  rw [reply?]
  induction s.replies with
  | nil => rfl
  | cons r rs ih =>
    obtain ⟨m, b⟩ := r
    by_cases hn : m = n
    · simp [hn]
    · have hb : (n == m) = false := by simpa using Ne.symm hn
      simpa [List.lookup_cons, hb, hn] using ih

structure Served (s : Service) (log : List Entry) (calls : List (Operation × Option Answer))
    (gone : List Nat) : Prop where
  distinct : (log.filterMap (·.waiting)).Nodup
  order : calls.map (·.1) <+: operations log
  complete : s.queue = [] → calls.map (·.1) = operations log ∧
    ((∃ e ∈ log, e.command = .shutdown) → s.isRunning = false)
  answered : ∀ k op n, log[k]? = some ⟨.perform op, some n⟩ → k < calls.length → n ∉ gone →
    ∃ a, calls[k]? = some (op, some a) ∧ s.replies.filter (·.1 = n) = [(n, a)] ∧
      s.outcome? n = some (.ok a)
  closed : ∀ n, (∀ e ∈ log.take calls.length, e.waiting ≠ some n) → n ∉ gone →
    s.replies.filter (·.1 = n) = [] ∧ (s.isRunning = false → s.outcome? n = some (.error .closed))

lemma Waiting.operations_nil (h : s.Waiting rest) (hq : s.queue = []) :
    operations rest = [] ∧ ((∃ e ∈ rest, e.command = .shutdown) → s.isRunning = false) := by
  cases h with
  | running hp hc =>
    rw [hq]
    exact ⟨rfl, by simp⟩
  | stopped rest hp hc hq hr =>
    refine ⟨?_, fun _ => by simp [isRunning, hp]⟩
    obtain ⟨rfl, -⟩ | ⟨w, q, rfl⟩ := hr <;> rfl

theorem Ledger.served (h : Ledger log calls s) (hc : s.phase ≠ .crashed) :
    s.Served log calls [] := by
  obtain ⟨done, rest, rfl, hd, hw⟩ := h.entries hc
  have hdist : ((done ++ rest).filterMap (·.waiting)).Nodup :=
    h.increasing.imp (fun hh => Nat.ne_of_lt hh)
  have hnd : (s.replies.map (·.1)).Nodup := by
    rw [List.filterMap_append] at hdist
    rw [hd.numbers]
    exact (List.nodup_append.1 hdist).1
  have ht : (done ++ rest).take calls.length = done := by rw [← hd.length, List.take_left]
  refine ⟨hdist, ?_, fun hq => ?_, fun k op n hk hl _ => ?_, fun n hn _ => ?_⟩
  · rw [hd.operations]
    exact List.prefix_append _ _
  · obtain ⟨ho, hs⟩ := hw.operations_nil hq
    refine ⟨by rw [hd.operations, ho, List.append_nil], ?_⟩
    rintro ⟨e, he, hec⟩
    obtain he | he := List.mem_append.1 he
    · exact absurd hec (hd.no_shutdown e he)
    · exact hs ⟨e, he, hec⟩
  · rw [List.getElem?_append_left (hd.length ▸ hl)] at hk
    obtain ⟨a, hca, hm⟩ := hd.reply hk
    have hf := filter_of_mem hnd hm
    exact ⟨a, hca, hf, by rw [outcome?, reply?_eq_head?, hf]; rfl⟩
  · have hf : s.replies.filter (·.1 = n) = [] := by
      refine filter_of_not_mem fun hm => ?_
      rw [hd.numbers] at hm
      obtain ⟨e, he, hen⟩ := List.mem_filterMap.1 hm
      rw [ht] at hn
      exact hn e he hen
    exact ⟨hf, fun hr => by rw [outcome?, reply?_eq_head?, hf, hr]; rfl⟩

end Service

end CallWaiting
