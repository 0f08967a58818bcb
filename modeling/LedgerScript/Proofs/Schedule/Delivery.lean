import LedgerScript.Proofs.Schedule.Channels

/-!
# What waiting receivers are woken with

A task that waits to receive is in the queue of its channel, until it is woken: with a value, or because the channel was
closed while nothing was in the buffer.  When it goes on it has been woken, so what it then returns is right.

Until a receiver goes on it is owed the value that it was woken with.  Others are owed nothing.  So of the values that
were handed to a task that waited, only one can be lost, and only if the task ends before it goes on.
-/

open Function (update)

namespace LedgerScript

variable {V : Type} {c : ObjectId} {t : TaskId} {new old : List (ChannelUse V)}

/-- No task that has waited to receive is concerned. -/
def ChannelUse.IsPlain : ChannelUse V → Prop
  | handed _ (some _) _ | collected .. => False
  | _ => True

namespace ChannelHistory

theorem handedTo_plain (plain : ∀ u ∈ new, u.IsPlain) : handedTo c t (new ++ old) = handedTo c t old := by
  induction new with
  | nil => rfl
  | cons u new ih =>
    obtain ⟨first, rest⟩ := List.forall_mem_cons.mp plain
    cases u with
    | handed c' r v =>
      cases r with
      | none => simpa [handedTo] using ih rest
      | some r => exact first.elim
    | collected => exact first.elim
    | _ => exact ih rest

theorem gotten_plain (plain : ∀ u ∈ new, u.IsPlain) : gotten c t (new ++ old) = gotten c t old := by
  induction new with
  | nil => rfl
  | cons u new ih =>
    obtain ⟨first, rest⟩ := List.forall_mem_cons.mp plain
    cases u with
    | collected => exact first.elim
    | _ => exact ih rest

end ChannelHistory

namespace Traffic

open ChannelHistory

variable {x y : Traffic V} {st st' : ChannelState V} {awaits awaits' : TaskId → Option ObjectId}

/-- A task that waits to receive has got a value, is in the queue, or has been turned away. -/
def AtPost (t : TaskId) (r : Option V × Bool) (st : ChannelState V) : Prop :=
  (∃ v, r = (some v, true)) ∨ t ∈ st.receivers ∨ r.1 = none ∧ st.isClosed = true ∧ st.buffer = []

/-- What a task that waits to receive is owed. -/
def due (awaits : TaskId → Option ObjectId) (x : Traffic V) (c : ObjectId) (t : TaskId) : Option V :=
  if awaits t = some c then (x.mail t).1 else none

/-- Whoever is in a queue of receivers waits at that channel, whoever waits is at his post, and nobody is owed more than
what he was woken with. -/
structure Posts (awaits : TaskId → Option ObjectId) (x : Traffic V) : Prop where
  queued : ∀ c st t, x.channel c = some st → t ∈ st.receivers → x.gone t = false →
    awaits t = some c ∧ x.mail t = (none, false) ∧ st.receivers.count t = 1
  posted : ∀ t c, awaits t = some c → x.gone t = false → ∃ st, x.channel c = some st ∧ AtPost t (x.mail t) st
  owed : ∀ c t, ∃ v? : Option V, handedTo c t x.uses = gotten c t x.uses ++ v?.toList ∧
    (x.gone t = false → v? = due awaits x c t)

/-- A channel gets another state, and no task that waits is woken. -/
theorem Posts.put (posts : x.Posts awaits) (here : x.channel c = some st)
    (fewer : st'.receivers.Sublist st.receivers) (plain : ∀ u ∈ new, u.IsPlain) {mail : TaskId → Option V × Bool}
    (same : ∀ t, x.gone t = false → mail t = x.mail t)
    (served : ∀ t, x.gone t = false → AtPost t (x.mail t) st → AtPost t (x.mail t) st') :
    Posts awaits { x.put c st' new with mail } := by
  refine ⟨fun c' st'' t there waits live => ?_, fun t c' waits live => ?_, fun c' t => ?_⟩
  · show awaits t = some c' ∧ mail t = (none, false) ∧ _
    rw [same t live]
    obtain ⟨rfl, rfl⟩ | ⟨-, there⟩ := update_channel_cases there
    · obtain ⟨mine, nothing, once⟩ := posts.queued c' st t here (fewer.subset waits) live
      refine ⟨mine, nothing, Nat.le_antisymm (once ▸ fewer.count_le t) ?_⟩
      exact List.count_pos_iff.mpr waits
    · exact posts.queued c' st'' t there waits live
  · obtain ⟨st'', there, post⟩ := posts.posted t c' waits live
    have kept : ∀ {st}, AtPost t (x.mail t) st → AtPost t (mail t) st := fun {st} post => by rwa [same t live]
    by_cases here' : c' = c
    · subst here'
      obtain rfl : st = st'' := Option.some.inj (here.symm.trans there)
      exact ⟨st', Function.update_self .., kept (served t live post)⟩
    · exact ⟨st'', (Function.update_of_ne here' ..).trans there, kept post⟩
  · obtain ⟨v?, handed, owed⟩ := posts.owed c' t
    refine ⟨v?, ?_, fun live => ?_⟩
    · show handedTo c' t (new ++ x.uses) = gotten c' t (new ++ x.uses) ++ _
      rwa [handedTo_plain plain, gotten_plain plain]
    · show v? = if awaits t = some c' then (mail t).1 else none
      rw [same t live]
      exact owed live

/-- A channel gets another state, and nobody is woken. -/
theorem Posts.put_only (posts : x.Posts awaits) (here : x.channel c = some st)
    (fewer : st'.receivers.Sublist st.receivers) (plain : ∀ u ∈ new, u.IsPlain)
    (served : ∀ t, x.gone t = false → AtPost t (x.mail t) st → AtPost t (x.mail t) st') : Posts awaits (x.put c st' new) :=
  posts.put here fewer plain (fun _ _ => rfl) served

/-- A value can be put into the buffer only while nobody waits to receive. -/
theorem AtPost.of_busy {r : Option V × Bool} (post : AtPost t r st) (nobody : st.receivers = [])
    (busy : st.isClosed = false ∨ st.buffer ≠ []) (st' : ChannelState V) : AtPost t r st' := by
  obtain served | waits | ⟨-, closed, empty⟩ := post
  · exact .inl served
  · simp [nobody] at waits
  · rcases busy with isOpen | some
    · exact absurd (isOpen.symm.trans closed) Bool.false_ne_true
    · exact absurd empty some

/-- A moment enters the history that concerns nobody who has waited. -/
theorem Posts.note (posts : x.Posts awaits) {u : ChannelUse V} (plain : u.IsPlain) : Posts awaits (x.note u) := by
  refine ⟨posts.queued, posts.posted, fun c t => ?_⟩
  have plain' : ∀ u' ∈ [u], u'.IsPlain := by simpa using plain
  obtain ⟨v?, handed, owed⟩ := posts.owed c t
  refine ⟨v?, ?_, owed⟩
  show handedTo c t ([u] ++ x.uses) = gotten c t ([u] ++ x.uses) ++ _
  rwa [handedTo_plain plain', gotten_plain plain']

theorem Posts.finish (posts : x.Posts awaits) (t : TaskId) : Posts awaits (x.finish t) := by
  have before : ∀ t', (x.finish t).gone t' = false → x.gone t' = false := fun t' live => by
    by_cases same : t' = t
    · simp [Traffic.finish, same] at live
    · exact (Function.update_of_ne same _ _).symm.trans live
  refine ⟨fun c st t' here waits live => posts.queued c st t' here waits (before t' live),
    fun t' c waits live => posts.posted t' c waits (before t' live), fun c t' => ?_⟩
  obtain ⟨v?, handed, owed⟩ := posts.owed c t'
  exact ⟨v?, handed, fun live => owed (before t' live)⟩

theorem Posts.create (posts : x.Posts awaits) (fresh : x.channel c = none) (capacity : Nat) :
    Posts awaits (x.put c ⟨capacity, [], false, [], []⟩ []) := by
  refine ⟨fun c' st t there waits live => ?_, fun t c' waits live => ?_, posts.owed⟩
  · obtain ⟨rfl, rfl⟩ | ⟨-, there⟩ := update_channel_cases there
    · simp at waits
    · exact posts.queued c' st t there waits live
  · obtain ⟨st, there, post⟩ := posts.posted t c' waits live
    have other : c' ≠ c := by
      rintro rfl
      simp [fresh] at there
    exact ⟨st, (Function.update_of_ne other ..).trans there, post⟩

/-- The first receiver gets a value. -/
theorem Posts.hand (posts : x.Posts awaits) {r : TaskId} {rest : List TaskId} (v : V) (here : x.channel c = some st)
    (first : st.receivers = r :: rest) (live : x.gone r = false) :
    Posts awaits ((x.put c { st with receivers := rest } [.handed c (some r) v, .sent c v]).post r (some v, true)) := by
  obtain ⟨mine, nothing, once⟩ := posts.queued c st r here (first ▸ List.mem_cons_self) live
  have left : r ∉ rest := by
    rw [first, List.count_cons_self] at once
    exact List.count_eq_zero.mp (Nat.succ.inj once)
  have kept : ∀ {t}, t ≠ r → update x.mail r (some v, true) t = x.mail t := fun other => Function.update_of_ne other ..
  refine ⟨fun c' st' t there waits live => ?_, fun t c' waits live => ?_, fun c' t => ?_⟩
  · have other : t ≠ r := by
      rintro rfl
      obtain ⟨rfl, rfl⟩ | ⟨elsewhere, there⟩ := update_channel_cases there
      · exact left waits
      · exact elsewhere (Option.some.inj ((posts.queued c' st' t there waits live).1.symm.trans mine))
    show awaits t = some c' ∧ update x.mail r (some v, true) t = (none, false) ∧ _
    rw [kept other]
    obtain ⟨rfl, rfl⟩ | ⟨-, there⟩ := update_channel_cases there
    · have before := posts.queued c' st t here (first ▸ List.mem_cons_of_mem r waits) live
      rw [first, List.count_cons_of_ne (Ne.symm other)] at before
      exact before
    · exact posts.queued c' st' t there waits live
  · by_cases me : t = r
    · subst me
      obtain rfl := Option.some.inj (mine.symm.trans waits)
      exact ⟨_, Function.update_self .., .inl ⟨v, Function.update_self ..⟩⟩
    · obtain ⟨st', there, post⟩ := posts.posted t c' waits live
      rw [← kept me] at post
      by_cases same : c' = c
      · subst same
        obtain rfl : st = st' := Option.some.inj (here.symm.trans there)
        refine ⟨_, Function.update_self .., post.imp_right (.imp_left fun waits => ?_)⟩
        rw [first, List.mem_cons] at waits
        exact waits.resolve_left me
      · exact ⟨st', (Function.update_of_ne same ..).trans there, post⟩
  · obtain ⟨v?, handed, owed⟩ := posts.owed c' t
    by_cases me : c = c' ∧ r = t
    · obtain ⟨rfl, rfl⟩ := me
      have none : v? = none := by rw [owed live, due, if_pos mine, nothing]
      refine ⟨some v, ?_, fun _ => ?_⟩
      · simp [Traffic.put, Traffic.post, handedTo, gotten, handed, none]
      · simp [due, mine, Traffic.put, Traffic.post]
    · refine ⟨v?, ?_, fun live => ?_⟩
      · simpa [Traffic.put, Traffic.post, handedTo, gotten, me] using handed
      · rw [owed live]
        by_cases same : t = r
        · have elsewhere : awaits t ≠ some c' := by
            rw [same, mine]
            exact fun here => me ⟨Option.some.inj here, same.symm⟩
          rw [due, due, if_neg elsewhere, if_neg elsewhere]
        · show _ = if awaits t = some c' then (update x.mail r (some v, true) t).1 else none
          rw [kept same, due]

/-- Whatever happens, those who wait stay at their posts. -/
theorem Posts.move (posts : x.Posts awaits) (lawful : x.Lawful) (move : x.Move y) : y.Posts awaits := by
  have idle : ∀ {c st}, x.channel c = some st → ∀ {v rest}, st.buffer = v :: rest → st.buffer ≠ [] ∧ st.receivers = [] := by
    intro c st here v rest full
    have some : st.buffer ≠ [] := by simp [full]
    exact ⟨some, (lawful.channels c st here).nobody some⟩
  cases move with
  | finish t => exact posts.finish t
  | create fresh capacity => exact posts.create fresh capacity
  | @skipReceivers c st dropped rest here queue ended =>
    refine posts.put_only here ?_ (by simp) fun t live post => ?_
    · rw [queue]
      exact List.sublist_append_right _ _
    · refine post.imp_right (.imp_left fun waits => ?_)
      rw [queue, List.mem_append] at waits
      exact waits.resolve_left fun mem => by simp [ended t mem] at live
  | @skipSenders c st dropped rest here queue ended =>
    refine posts.put_only here ?_ (by simp) fun t _ post => ?_
    · exact List.Sublist.refl _
    · exact post
  | hand v here isOpen first live => exact posts.hand v here first live
  | @store c st v here isOpen nobody room =>
    refine posts.put_only here ?_ (by simp [ChannelUse.IsPlain]) fun t _ post => ?_
    · exact List.Sublist.refl _
    · exact post.of_busy nobody (.inl isOpen) _
  | @offer c st t v here isOpen nobody full =>
    refine posts.put_only here ?_ (by simp [ChannelUse.IsPlain]) fun t _ post => ?_
    · exact List.Sublist.refl _
    · exact post.of_busy nobody (.inl isOpen) _
  | @shift c st v w t rest more here full waits live =>
    obtain ⟨some, nobody⟩ := idle here full
    refine posts.put_only here ?_ (by simp [ChannelUse.IsPlain]) fun t _ post => ?_
    · exact List.Sublist.refl _
    · exact post.of_busy nobody (.inr some) _
  | @take c st v rest here full none =>
    obtain ⟨some, nobody⟩ := idle here full
    refine posts.put_only here ?_ (by simp [ChannelUse.IsPlain]) fun t _ post => ?_
    · exact List.Sublist.refl _
    · exact post.of_busy nobody (.inr some) _
  | @fetch c st w t more here empty waits live =>
    refine posts.put_only here ?_ (by simp [ChannelUse.IsPlain]) fun t _ post => ?_
    · exact List.Sublist.refl _
    · exact post
  | drain => exact posts.note trivial
  | @close c st mail here isOpen others refused =>
    have same : ∀ t, x.gone t = false → mail t = x.mail t := by
      intro t live
      by_cases mem : t ∈ st.receivers
      · rcases refused t mem with same | turned
        · exact same
        · exact turned.trans (posts.queued c st t here mem live).2.1.symm
      · exact others t mem
    refine posts.put here (List.nil_sublist _) (by simp [ChannelUse.IsPlain]) same fun t live post => ?_
    obtain served | waits | ⟨-, closed, -⟩ := post
    · exact .inl served
    · -- nobody waits to receive while something is in the buffer
      have nothing := (posts.queued c st t here waits live).2.1
      have empty := ((lawful.channels c st here).receivers (List.ne_nil_of_mem waits)).1
      exact .inr (.inr ⟨by rw [nothing], rfl, empty⟩)
    · exact absurd (isOpen.symm.trans closed) Bool.false_ne_true

theorem Posts.moves (posts : x.Posts awaits) (lawful : x.Lawful) (moves : x.Moves y) : y.Posts awaits := by
  induction moves with
  | refl => exact posts
  | tail before move ih => exact ih.move (lawful.moves before) move

/-- A task begins to wait, or has been killed and joins the queue all the same. -/
theorem Posts.join (posts : x.Posts awaits) (join : x.Join t c y) (idle : awaits t = none)
    (others : ∀ t', t' ≠ t → awaits' t' = awaits t') (mine : x.gone t = true ∨ awaits' t = some c) : y.Posts awaits' := by
  cases join with
  | @wait st here isOpen empty nobody =>
    have kept : ∀ {t'}, t' ≠ t → update x.mail t (none, false) t' = x.mail t' := fun other => Function.update_of_ne other ..
    have absent : ∀ {c st}, x.channel c = some st → x.gone t = false → t ∉ st.receivers := fun there live waits => by
      have known := (posts.queued _ _ t there waits live).1
      simp [idle] at known
    refine ⟨fun c' st' t' there waits live => ?_, fun t' c' waits live => ?_, fun c' t' => ?_⟩
    · show awaits' t' = some c' ∧ update x.mail t (none, false) t' = (none, false) ∧ _
      by_cases me : t' = t
      · subst me
        have mine := mine.resolve_left fun gone => Bool.false_ne_true (live.symm.trans gone)
        obtain ⟨rfl, rfl⟩ | ⟨-, there⟩ := update_channel_cases there
        · refine ⟨mine, Function.update_self .., ?_⟩
          rw [List.count_append, List.count_eq_zero.mpr (absent here live)]
          simp
        · exact absurd waits (absent there live)
      · rw [others t' me, kept me]
        obtain ⟨rfl, rfl⟩ | ⟨-, there⟩ := update_channel_cases there
        · have waits : t' ∈ st.receivers := by simpa [me] using waits
          have other : t ≠ t' := Ne.symm me
          simpa [List.count_append, List.count_singleton, other] using posts.queued c' st t' here waits live
        · exact posts.queued c' st' t' there waits live
    · by_cases me : t' = t
      · subst me
        have mine := mine.resolve_left fun gone => Bool.false_ne_true (live.symm.trans gone)
        obtain rfl := Option.some.inj (mine.symm.trans waits)
        refine ⟨_, Function.update_self .., .inr (.inl ?_)⟩
        simp
      · obtain ⟨st', there, post⟩ := posts.posted t' c' ((others t' me).symm.trans waits) live
        rw [← kept me] at post
        by_cases same : c' = c
        · subst same
          obtain rfl : st = st' := Option.some.inj (here.symm.trans there)
          exact ⟨_, Function.update_self .., post.imp_right (.imp_left (List.mem_append_left _))⟩
        · exact ⟨st', (Function.update_of_ne same ..).trans there, post⟩
    · obtain ⟨v?, handed, owed⟩ := posts.owed c' t'
      refine ⟨v?, handed, fun live => ?_⟩
      rw [owed live, due, due]
      by_cases me : t' = t
      · subst me
        simp [idle, Traffic.post]
      · show _ = if awaits' t' = some c' then (update x.mail t (none, false) t').1 else none
        rw [others t' me, kept me]

/-- A task that has waited to receive, and is in no queue any more, has been woken. -/
theorem Posts.woken (posts : x.Posts awaits) (waits : awaits t = some c) (live : x.gone t = false)
    (free : ∀ c st, x.channel c = some st → t ∉ st.receivers) :
    (∃ v, x.mail t = (some v, true) ∧ x.channel c ≠ none) ∨
      (x.mail t).1 = none ∧ ∃ st, x.channel c = some st ∧ st.isClosed = true ∧ st.buffer = [] := by
  obtain ⟨st, here, ⟨v, served⟩ | queued | ⟨nothing, turned⟩⟩ := posts.posted t c waits live
  · exact .inl ⟨v, served, by simp [here]⟩
  · exact absurd queued (free c st here)
  · exact .inr ⟨nothing, st, here, turned⟩

/-- It does not matter what tasks that have ended have waited for. -/
theorem Posts.congr (posts : x.Posts awaits) (same : ∀ t, x.gone t = false → awaits' t = awaits t) : x.Posts awaits' := by
  refine ⟨fun c st t here waits live => ?_, fun t c waits live => ?_, fun c t => ?_⟩
  · rw [same t live]
    exact posts.queued c st t here waits live
  · exact posts.posted t c ((same t live).symm.trans waits) live
  · obtain ⟨v?, handed, owed⟩ := posts.owed c t
    refine ⟨v?, handed, fun live => ?_⟩
    rw [owed live, due, due, same t live]

/-- A task goes on that has been woken. -/
theorem Posts.leave (posts : x.Posts awaits) (leave : x.Leave t c y) (waits : awaits t = some c) (live : x.gone t = false)
    (free : ∀ c st, x.channel c = some st → t ∉ st.receivers) : y.Posts (update awaits t none) := by
  have stops : update awaits t none t = none := Function.update_self ..
  have kept : ∀ {t'}, t' ≠ t → update awaits t none t' = awaits t' := fun other => Function.update_of_ne other ..
  cases leave with
  | @collect v ok known served =>
    have kept' : ∀ {t'}, t' ≠ t → update x.mail t (none, ok) t' = x.mail t' := fun other => Function.update_of_ne other ..
    refine ⟨fun c' st t' there queued live' => ?_, fun t' c' waits' live' => ?_, fun c' t' => ?_⟩
    · have other : t' ≠ t := fun me => free c' st there (me ▸ queued)
      show update awaits t none t' = some c' ∧ update x.mail t (none, ok) t' = (none, false) ∧ _
      rw [kept other, kept' other]
      exact posts.queued c' st t' there queued live'
    · have other : t' ≠ t := fun me => by simp [me] at waits'
      obtain ⟨st, there, post⟩ := posts.posted t' c' ((kept other).symm.trans waits') live'
      rw [← kept' other] at post
      exact ⟨st, there, post⟩
    · obtain ⟨v?, handed, owed⟩ := posts.owed c' t'
      by_cases me : c = c' ∧ t = t'
      · obtain ⟨rfl, rfl⟩ := me
        have some : v? = some v := by rw [owed live, due, if_pos waits, served]
        refine ⟨none, ?_, fun _ => ?_⟩
        · simp [Traffic.note, Traffic.post, handedTo, gotten, handed, some]
        · rw [due, stops, if_neg (by simp)]
      · refine ⟨v?, ?_, fun live' => ?_⟩
        · simpa [Traffic.note, Traffic.post, handedTo, gotten, me] using handed
        · rw [owed live']
          by_cases same : t' = t
          · have elsewhere : awaits t ≠ Option.some c' := by
              rw [waits]
              exact fun here => me ⟨Option.some.inj here, same.symm⟩
            rw [due, due, same, stops, if_neg elsewhere, if_neg (by simp)]
          · show _ = if update awaits t none t' = Option.some c' then (update x.mail t (none, ok) t').1 else none
            rw [kept same, kept' same, due]
  | drain nothing here closed empty =>
    refine Posts.note ?_ trivial
    refine ⟨fun c' st t' there queued live' => ?_, fun t' c' waits' live' => ?_, fun c' t' => ?_⟩
    · have other : t' ≠ t := fun me => free c' st there (me ▸ queued)
      rw [kept other]
      exact posts.queued c' st t' there queued live'
    · have other : t' ≠ t := fun me => by simp [me] at waits'
      exact posts.posted t' c' ((kept other).symm.trans waits') live'
    · obtain ⟨v?, handed, owed⟩ := posts.owed c' t'
      refine ⟨v?, handed, fun live' => ?_⟩
      rw [owed live', due, due]
      by_cases same : t' = t
      · simp [same, nothing]
      · rw [kept same]

/-! ## All that happens -/

inductive Event (x : Traffic V) : Traffic V → Prop where
  | move {y : Traffic V} (move : x.Move y) : Event x y
  | join {y : Traffic V} {t : TaskId} {c : ObjectId} (join : x.Join t c y) : Event x y
  | leave {y : Traffic V} {t : TaskId} {c : ObjectId} (leave : x.Leave t c y) : Event x y

abbrev Leads : Traffic V → Traffic V → Prop :=
  Relation.ReflTransGen Event

theorem Moves.leads (moves : x.Moves y) : x.Leads y :=
  Relation.ReflTransGen.mono (fun _ _ => .move) _ _ moves

theorem capacity_update {c' : ObjectId} {st₁ st₂ : ChannelState V} (there : x.channel c' = some st₁)
    (same : st₂.capacity = st₁.capacity) (here : x.channel c = some st) :
    ∃ st', update x.channel c' (some st₂) c = some st' ∧ st'.capacity = st.capacity := by
  by_cases me : c = c'
  · subst me
    obtain rfl : st = st₁ := Option.some.inj (here.symm.trans there)
    exact ⟨st₂, Function.update_self .., same⟩
  · exact ⟨st, (Function.update_of_ne me ..).trans here, rfl⟩

theorem Event.capacity (event : x.Event y) (here : x.channel c = some st) :
    ∃ st', y.channel c = some st' ∧ st'.capacity = st.capacity := by
  cases event with
  | move move =>
    cases move with
    | finish | drain => exact ⟨st, here, rfl⟩
    | create fresh =>
      refine ⟨st, (Function.update_of_ne ?_ ..).trans here, rfl⟩
      rintro rfl
      simp [here] at fresh
    | skipReceivers there | skipSenders there | hand _ there | store _ there | offer _ _ there | shift there | take there
    | fetch there | close there =>
      exact capacity_update there rfl here
  | join join =>
    cases join with
    | wait there => exact capacity_update there rfl here
  | leave leave =>
    cases leave with
    | collect | drain => exact ⟨st, here, rfl⟩

theorem Leads.capacity (leads : x.Leads y) (here : x.channel c = some st) :
    ∃ st', y.channel c = some st' ∧ st'.capacity = st.capacity := by
  induction leads with
  | refl => exact ⟨st, here, rfl⟩
  | tail _ event ih =>
    obtain ⟨st', here', same⟩ := ih
    obtain ⟨st'', here'', same'⟩ := event.capacity here'
    exact ⟨st'', here'', same'.trans same⟩

/-- The channels are lawful, and those who wait to receive are at their posts. -/
structure InOrder (awaits : TaskId → Option ObjectId) (x : Traffic V) : Prop where
  lawful : x.Lawful
  posts : x.Posts awaits

theorem InOrder.moves (order : x.InOrder awaits) (moves : x.Moves y) : y.InOrder awaits :=
  ⟨order.lawful.moves moves, order.posts.moves order.lawful moves⟩

theorem InOrder.join (order : x.InOrder awaits) (join : x.Join t c y) (idle : awaits t = none)
    (others : ∀ t', t' ≠ t → awaits' t' = awaits t') (mine : x.gone t = true ∨ awaits' t = some c) : y.InOrder awaits' :=
  ⟨order.lawful.join join, order.posts.join join idle others mine⟩

theorem InOrder.congr (order : x.InOrder awaits) (same : ∀ t, x.gone t = false → awaits' t = awaits t) :
    x.InOrder awaits' :=
  ⟨order.lawful, order.posts.congr same⟩

theorem InOrder.leave (order : x.InOrder awaits) (leave : x.Leave t c y) (waits : awaits t = some c)
    (live : x.gone t = false) (free : ∀ c st, x.channel c = some st → t ∉ st.receivers) :
    y.InOrder (update awaits t none) :=
  ⟨order.lawful.leave leave, order.posts.leave leave waits live free⟩

end Traffic

end LedgerScript
