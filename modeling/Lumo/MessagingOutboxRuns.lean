import Mathlib.Order.Basic
import Lumo.MessagingOutbox

/-! # The relay loses nothing

A row is taken out of the queue when each of its consumers has had its effect or its dead letter.
A round that is not brought to its end is repeated under the same number of attempts. -/
namespace Messaging

open LabelledRuns

def Settled (w : World) (consumer : DirectConsumer) (messageId : String) : Prop :=
  0 < w.effects consumer messageId ∨
    ∃ letter ∈ w.deadLetters, letter.1 = consumer ∧ letter.2.messageId = messageId

def LosesNothing (relay : OutboxDeliveryRelay) (w : World) : Prop :=
  ∀ row ∈ w.rows, row.entry.status = .published → ∀ consumer ∈ relay.consumers,
    consumer.topic = row.entry.topic → Settled w consumer row.entry.id

def EffectsOnce (w : World) : Prop := ∀ consumer messageId, w.effects consumer messageId ≤ 1

def TriedWithin (w : World) (rounds : String → ℕ) : Prop :=
  ∀ consumer messageId, (w.passes consumer messageId).length ≤ rounds messageId

/-- As long as the consumer has no dead letter of the message. -/
def TriedBefore (w : World) (rounds : ℕ) : Prop :=
  ∀ consumer messageId,
    (∀ letter ∈ w.deadLetters, letter.1 = consumer → letter.2.messageId ≠ messageId) →
      (w.passes consumer messageId).length ≤ rounds

section Invariant

variable {relay : OutboxDeliveryRelay} {w : World} {point : Point} {rows : List Row}
  {due : DueOutboxEntry} {dues rest : List DueOutboxEntry} {left : List DirectConsumer}
  {failures : List Failure} {pass : Pass} {consumer other : DirectConsumer}
  {messageId : String}

def Fetched (rows : List Row) (due : DueOutboxEntry) : Prop :=
  ∃ row ∈ rows, row.entry = due.entry ∧ row.attempts = due.attempts ∧ row.entry.status = .pending

def Routed (relay : OutboxDeliveryRelay) (due : DueOutboxEntry) : Prop :=
  ∃ consumer ∈ relay.consumers, consumer.topic = due.entry.topic

structure Ahead (relay : OutboxDeliveryRelay) (rows : List Row) (dues : List DueOutboxEntry) :
    Prop where
  fetched : ∀ due ∈ dues, Routed relay due → Fetched rows due
  distinct : (dues.map (·.entry.id)).Nodup

/-- A round of a row, with the consumers that may not be settled. -/
structure Round (relay : OutboxDeliveryRelay) (w : World) (due : DueOutboxEntry)
    (rest : List DueOutboxEntry) (left : List DirectConsumer) : Prop where
  ahead : Ahead relay w.rows (due :: rest)
  routed : Routed relay due
  owed : ∀ consumer ∈ relay.consumers, consumer.topic = due.entry.topic →
    consumer ∈ left ∨ Settled w consumer due.entry.id

def Standing (relay : OutboxDeliveryRelay) (w : World) : Point → Prop
  | .idle _ => True
  | .markingUnrouted batch => Ahead relay w.rows batch ∧ ∀ due ∈ batch, Fetched w.rows due
  | .delivering due consumer left failures pass =>
    Round relay w due pass.rest (consumer :: left ++ failures.map (·.consumer))
  | .deadLettering due failure left pass =>
    Round relay w due pass.rest ((failure :: left).map (·.consumer))
  | .marking due _ pass => Round relay w due pass.rest []
  | .deferring due _ pass =>
    Round relay w due pass.rest relay.consumers ∧ due.attempts < relay.retryDelaysMs.length

theorem Ahead.tail (h : Ahead relay rows (due :: dues)) : Ahead relay rows dues :=
  ⟨fun d hd => h.fetched d (List.mem_cons_of_mem _ hd), (List.nodup_cons.mp h.distinct).2⟩

theorem Ahead.ne (h : Ahead relay rows (due :: dues)) {d : DueOutboxEntry} (hd : d ∈ dues) :
    d.entry.id ≠ due.entry.id := by
  intro heq
  exact (List.nodup_cons.mp h.distinct).1 (List.mem_map.mpr ⟨d, hd, heq⟩)

theorem Ahead.of_rows {rows' : List Row} (h : Ahead relay rows dues)
    (hrows : ∀ due ∈ dues, Routed relay due → Fetched rows due → Fetched rows' due) :
    Ahead relay rows' dues :=
  ⟨fun d hd hrouted => hrows d hd hrouted (h.fetched d hd hrouted), h.distinct⟩

theorem Fetched.enqueue (h : Fetched rows due) (entries : List OutboxEntry) :
    Fetched (enqueue rows entries) due := by
  obtain ⟨row, hrow, hdue⟩ := h
  exact ⟨row, List.mem_append_left _ hrow, hdue⟩

theorem Fetched.markDelivered (h : Fetched rows due) {ids : List String} (hids : due.entry.id ∉ ids)
    (deliveredAt : ℤ) : Fetched (markDelivered rows ids deliveredAt) due := by
  obtain ⟨row, hrow, hentry, hdue⟩ := h
  rw [← hentry] at hids
  exact ⟨row, List.mem_map.mpr ⟨row, hrow, if_neg fun hrow => hids hrow.1⟩, hentry, hdue⟩

theorem Fetched.defer (h : Fetched rows due) {id : String} (hid : due.entry.id ≠ id)
    (attempts : ℕ) (availableAt : ℤ) : Fetched (defer rows id attempts availableAt) due := by
  obtain ⟨row, hrow, hentry, hdue⟩ := h
  rw [← hentry] at hid
  exact ⟨row, List.mem_map.mpr ⟨row, hrow, await_other hid attempts availableAt⟩, hentry, hdue⟩

theorem Fetched.row (h : Fetched rows due) (hids : (rows.map (·.entry.id)).Nodup) {row : Row}
    (hrow : row ∈ rows) (hid : row.entry.id = due.entry.id) :
    row.entry = due.entry ∧ row.attempts = due.attempts ∧ row.entry.status = .pending := by
  obtain ⟨row', hrow', hdue⟩ := h
  have heq : row = row' := by
    apply List.inj_on_of_nodup_map hids hrow hrow'
    rw [hid, hdue.1]
  rw [heq]
  exact hdue

theorem fetched_fetchDue {limit : ℕ} {now : ℤ} (h : due ∈ fetchDue rows limit now) :
    Fetched rows due := by
  obtain ⟨row, hrow, rfl⟩ := List.mem_map.mp h
  obtain ⟨hrow, hpending⟩ := List.mem_filter.mp (List.mem_of_mem_take hrow)
  rw [Bool.and_eq_true, decide_eq_true_eq] at hpending
  exact ⟨row, hrow, rfl, rfl, hpending.1⟩

theorem ahead_fetchDue (hids : (rows.map (·.entry.id)).Nodup) (limit : ℕ) (now : ℤ) :
    Ahead relay rows (fetchDue rows limit now) := by
  constructor
  · intro due hdue _
    exact fetched_fetchDue hdue
  · rw [fetchDue, List.map_map]
    exact List.Nodup.sublist (((List.take_sublist _ _).trans List.filter_sublist).map _) hids

theorem routed_of_find? {consumers : List DirectConsumer}
    (h : (consumersByTopic relay).find? due.entry.topic = some consumers) :
    Routed relay due ∧ consumers = relay.consumers.filter (·.topic = due.entry.topic) := by
  rw [consumersByTopic_find?] at h
  split at h
  · cases h
  · rename_i hne
    obtain ⟨consumer, hconsumer⟩ := List.exists_mem_of_ne_nil _ hne
    obtain ⟨hmem, htopic⟩ := List.mem_filter.mp hconsumer
    exact ⟨⟨consumer, hmem, of_decide_eq_true htopic⟩, (Option.some.inj h).symm⟩

theorem not_routed_of_find? (h : (consumersByTopic relay).find? due.entry.topic = none) :
    ¬ Routed relay due := by
  rintro ⟨consumer, hconsumer, htopic⟩
  rw [consumersByTopic_find?] at h
  split at h
  · rename_i hnil
    have hmem : consumer ∈ relay.consumers.filter (·.topic = due.entry.topic) :=
      List.mem_filter.mpr ⟨hconsumer, decide_eq_true htopic⟩
    rw [hnil] at hmem
    cases hmem
  · cases h

theorem Ahead.unrouted (h : Ahead relay rows dues) (hdue : due ∈ dues)
    (hid : due.entry.id ∈ (unrouted relay dues).map (·.entry.id)) : ¬ Routed relay due := by
  obtain ⟨due', hdue', heq⟩ := List.mem_map.mp hid
  obtain ⟨hmem, hnone⟩ := List.mem_filter.mp hdue'
  obtain rfl := List.inj_on_of_nodup_map h.distinct hmem hdue heq
  exact not_routed_of_find? (Option.isNone_iff_eq_none.mp hnone)

theorem standing_settle (h : Round relay w due pass.rest (failures.map (·.consumer))) :
    Standing relay w (settle relay due failures pass) := by
  unfold settle
  split
  · exact h
  · dsimp only
    split
    · exact h
    · rename_i hdelay
      rw [Nat.add_sub_cancel] at hdelay
      exact ⟨⟨h.ahead, h.routed, fun _ hconsumer _ => .inl hconsumer⟩,
        (List.getElem?_eq_some_iff.mp hdelay).1⟩

theorem standing_deliverRow (h : Round relay w due pass.rest (left ++ failures.map (·.consumer))) :
    Standing relay w (deliverRow relay due left failures pass) := by
  cases left with
  | nil => exact standing_settle h
  | cons consumer left => exact h

theorem standing_drainRows (h : Ahead relay w.rows rest) (report : OutboxDeliveryReport) :
    Standing relay w (drainRows relay rest report) := by
  induction rest with
  | nil => trivial
  | cons due rest ih =>
    rw [drainRows]
    split
    · exact ih h.tail
    · rename_i consumers hfind
      obtain ⟨hrouted, rfl⟩ := routed_of_find? hfind
      apply standing_deliverRow
      refine ⟨h, hrouted, fun consumer hconsumer htopic => .inl ?_⟩
      exact List.mem_append_left _ (List.mem_filter.mpr ⟨hconsumer, decide_eq_true htopic⟩)

theorem standing_drainBatch (h : Ahead relay w.rows dues)
    (hfetched : ∀ due ∈ dues, Fetched w.rows due) : Standing relay w (drainBatch relay dues) := by
  unfold drainBatch
  split
  · exact ⟨h, hfetched⟩
  · exact standing_drainRows h _

theorem row?_settle : (settle relay due failures pass).row? = some due := by
  unfold settle
  split
  · rfl
  · dsimp only
    split <;> rfl

theorem row?_deliverRow : (deliverRow relay due left failures pass).row? = some due := by
  cases left with
  | nil => exact row?_settle
  | cons consumer left => rfl

def Counted (w : World) : Prop :=
  ∀ consumer messageId,
    w.effects consumer messageId = if messageId ∈ w.inbox consumer then 1 else 0

theorem Counted.effect (h : Counted w) (consumer : DirectConsumer) (messageId : String) :
    Counted (w.effect consumer messageId) := by
  intro other id
  unfold World.effect
  split
  · exact h other id
  · rename_i hnew
    by_cases hother : other = consumer
    · subst hother
      by_cases hid : id = messageId
      · subst hid
        simp [h other id, hnew]
      · simp [hid, h other id]
    · simp [hother, h other id]

theorem Settled.effect (h : Settled w other messageId) (consumer : DirectConsumer) (id : String) :
    Settled (w.effect consumer id) other messageId := by
  unfold World.effect
  split
  · exact h
  · refine h.imp_left fun hpos => ?_
    by_cases hother : other = consumer
    · subst hother
      by_cases hid : messageId = id
      · subst hid
        simp
      · simpa [hid] using hpos
    · simpa [hother] using hpos

theorem settled_effect (h : Counted w) (consumer : DirectConsumer) (messageId : String) :
    Settled (w.effect consumer messageId) consumer messageId := by
  unfold World.effect
  split
  · rename_i hmem
    refine .inl ?_
    rw [h, if_pos hmem]
    exact Nat.one_pos
  · exact .inl (by simp)

theorem Settled.deliver (h : Settled w other messageId) (consumer : DirectConsumer) (id : String)
    (delivery : Delivery) : Settled (w.deliver consumer id delivery) other messageId := by
  have hattempt : Settled (w.attempt consumer id) other messageId := h
  rcases deliver_cases w consumer id delivery with heq | ⟨heq, -⟩
  · rw [heq]
    exact hattempt.effect consumer id
  · rw [heq]
    exact hattempt

theorem settled_deliver (h : Counted w) (consumer : DirectConsumer) (messageId : String)
    (delivery : Delivery) :
    consumer ∈ (failuresOf consumer delivery).map (·.consumer) ∨
      Settled (w.deliver consumer messageId delivery) consumer messageId := by
  have hattempt : Counted (w.attempt consumer messageId) := h
  rcases deliver_cases w consumer messageId delivery with heq | ⟨-, error, hfailures⟩
  · rw [heq]
    exact .inr (settled_effect hattempt consumer messageId)
  · rw [hfailures]
    exact .inl (List.mem_singleton_self _)

theorem Counted.deliver (h : Counted w) (consumer : DirectConsumer) (messageId : String)
    (delivery : Delivery) : Counted (w.deliver consumer messageId delivery) := by
  have hattempt : Counted (w.attempt consumer messageId) := h
  rcases deliver_cases w consumer messageId delivery with heq | ⟨heq, -⟩
  · rw [heq]
    exact hattempt.effect consumer messageId
  · rw [heq]
    exact hattempt

theorem Settled.deadLetter (h : Settled w other messageId)
    (letter : DirectConsumer × DirectDeadLetter) :
    Settled { w with deadLetters := w.deadLetters ++ [letter] } other messageId := by
  refine h.imp_right ?_
  rintro ⟨letter', hmem, hletter⟩
  exact ⟨letter', List.mem_append_left _ hmem, hletter⟩

variable {w' : World}

theorem LosesNothing.mono (h : LosesNothing relay w) (hrows : w'.rows = w.rows)
    (hsettled : ∀ consumer messageId, Settled w consumer messageId →
      Settled w' consumer messageId) : LosesNothing relay w' := by
  intro row hrow hpublished consumer hconsumer htopic
  rw [hrows] at hrow
  exact hsettled _ _ (h row hrow hpublished consumer hconsumer htopic)

theorem Round.mono {left' : List DirectConsumer} (h : Round relay w due rest left)
    (hrows : ∀ due, Fetched w.rows due → Fetched w'.rows due)
    (hleft : ∀ consumer ∈ left, consumer ∈ left' ∨ Settled w' consumer due.entry.id)
    (hsettled : ∀ consumer messageId, Settled w consumer messageId →
      Settled w' consumer messageId) : Round relay w' due rest left' := by
  refine ⟨h.ahead.of_rows fun due _ _ => hrows due, h.routed, fun consumer hconsumer htopic => ?_⟩
  rcases h.owed consumer hconsumer htopic with hmem | hdone
  · exact hleft consumer hmem
  · exact .inr (hsettled _ _ hdone)

theorem Standing.mono (h : Standing relay w point)
    (hrows : ∀ due, Fetched w.rows due → Fetched w'.rows due)
    (hsettled : ∀ consumer messageId, Settled w consumer messageId →
      Settled w' consumer messageId) : Standing relay w' point := by
  cases point with
  | idle last => trivial
  | markingUnrouted batch =>
    exact ⟨h.1.of_rows fun due _ _ => hrows due, fun due hdue => hrows due (h.2 due hdue)⟩
  | delivering | deadLettering | marking =>
    exact Round.mono h hrows (fun _ hmem => .inl hmem) hsettled
  | deferring due delayMs pass =>
    exact ⟨Round.mono h.1 hrows (fun _ hmem => .inl hmem) hsettled, h.2⟩

def inRound (w : World) (point : Point) (consumer : DirectConsumer) (messageId : String) : ℕ :=
  if point.row?.map (·.entry.id) = some messageId ∧ w.pass ∈ w.passes consumer messageId then 1
  else 0

theorem inRound_le_one (w : World) (point : Point) (consumer : DirectConsumer)
    (messageId : String) : inRound w point consumer messageId ≤ 1 := by
  unfold inRound
  split
  · exact Nat.le_refl 1
  · exact Nat.zero_le 1

def Spent (w : World) (point : Point) : Prop :=
  ∀ row ∈ w.rows, row.entry.status = .pending → ∀ consumer,
    (w.passes consumer row.entry.id).length ≤
      row.attempts + w.cutShort row.entry.id + inRound w point consumer row.entry.id

structure Sound (relay : OutboxDeliveryRelay) (w : World) (point : Point) : Prop where
  ids : (w.rows.map (·.entry.id)).Nodup
  counted : Counted w
  losesNothing : LosesNothing relay w
  attempts : ∀ row ∈ w.rows, row.attempts ≤ relay.retryDelaysMs.length
  unknown : ∀ consumer messageId, messageId ∉ w.rows.map (·.entry.id) →
    w.passes consumer messageId = []
  tried : TriedWithin w fun messageId => relay.retryDelaysMs.length + 1 + w.cutShort messageId
  spent : Spent w point
  standing : Standing relay w point

namespace Sound

variable {row : Row} {entry : OutboxEntry} {last : Option OutboxDeliveryReport}
  {delivery : Delivery} {failure : Failure} {outcome : RowOutcome} {delayMs : ℤ}

theorem between (h : Sound relay w point) (hrow : row ∈ w.rows)
    (hpending : row.entry.status = .pending)
    (hround : point.row?.map (·.entry.id) ≠ some row.entry.id) (consumer : DirectConsumer) :
    (w.passes consumer row.entry.id).length ≤ row.attempts + w.cutShort row.entry.id := by
  have hspent := h.spent row hrow hpending consumer
  rw [inRound, if_neg fun hin => hround hin.1] at hspent
  exact hspent

theorem start (relay : OutboxDeliveryRelay) : Sound relay .empty (.idle none) where
  ids := List.nodup_nil
  counted _ _ := rfl
  losesNothing row hrow := by cases hrow
  attempts row hrow := by cases hrow
  unknown _ _ _ := rfl
  tried _ _ := Nat.zero_le _
  spent row hrow := by cases hrow
  standing := trivial

theorem enqueues (h : Sound relay w point) (hpending : entry.status = .pending)
    (hfresh : entry.id ∉ w.rows.map (·.entry.id)) :
    Sound relay { w with rows := enqueue w.rows [entry] } point := by
  have hcases : ∀ row ∈ enqueue w.rows [entry], row ∈ w.rows ∨ row = ⟨entry, 0, none⟩ := by
    intro row hrow
    simpa [enqueue] using hrow
  refine ⟨?_, h.counted, ?_, ?_, ?_, h.tried, ?_, ?_⟩
  · simp only [enqueue, List.map_append, List.map_cons, List.map_nil]
    rw [List.nodup_append]
    refine ⟨h.ids, List.nodup_singleton _, fun id hid id' hid' heq => hfresh ?_⟩
    rw [List.mem_singleton.mp hid'] at heq
    exact heq ▸ hid
  · intro row hrow hpublished
    rcases hcases row hrow with hold | rfl
    · exact h.losesNothing row hold hpublished
    · rw [hpending] at hpublished
      cases hpublished
  · intro row hrow
    rcases hcases row hrow with hold | rfl
    · exact h.attempts row hold
    · exact Nat.zero_le _
  · intro consumer messageId hid
    refine h.unknown consumer messageId fun hmem => hid ?_
    simp only [enqueue, List.map_append]
    exact List.mem_append_left _ hmem
  · intro row hrow hrowPending consumer
    rcases hcases row hrow with hold | rfl
    · exact h.spent row hold hrowPending consumer
    · rw [h.unknown consumer entry.id hfresh]
      exact Nat.zero_le _
  · exact h.standing.mono (fun due hdue => hdue.enqueue [entry]) fun _ _ hsettled => hsettled

theorem drains (h : Sound relay w (.idle last)) (limit : ℕ) (now : ℤ) :
    Sound relay { w with pass := w.pass + 1 }
      (drainBatch relay (fetchDue w.rows limit now)) := by
  refine ⟨h.ids, h.counted, h.losesNothing, h.attempts, h.unknown, h.tried, ?_, ?_⟩
  · intro row hrow hpending consumer
    exact (h.between hrow hpending (by simp [Point.row?]) consumer).trans (Nat.le_add_right _ _)
  · exact standing_drainBatch (ahead_fetchDue h.ids limit now) fun _ => fetched_fetchDue

variable {point' : Point}

/-- Rows are published whose consumers are settled, between rounds or at the end of one. -/
theorem publishes {ids : List String} (h : Sound relay w point) (now : ℤ)
    (hround : ∀ due, point.row? = some due → due.entry.id ∈ ids)
    (hsettled : ∀ row ∈ w.rows, row.entry.id ∈ ids → ∀ consumer ∈ relay.consumers,
      consumer.topic = row.entry.topic → Settled w consumer row.entry.id)
    (hstanding : Standing relay { w with rows := markDelivered w.rows ids now } point') :
    Sound relay { w with rows := markDelivered w.rows ids now } point' := by
  refine ⟨?_, h.counted, ?_, ?_, ?_, h.tried, ?_, hstanding⟩
  · rw [ids_markDelivered]
    exact h.ids
  · intro row' hrow' hpublished consumer hconsumer htopic
    obtain ⟨row, hrow, rfl⟩ := List.mem_map.mp hrow'
    rw [publish_topic] at htopic
    rw [publish_id]
    rcases published_cases hpublished with hbefore | hid
    · exact h.losesNothing row hrow hbefore consumer hconsumer htopic
    · exact hsettled row hrow hid consumer hconsumer htopic
  · intro row' hrow'
    obtain ⟨row, hrow, rfl⟩ := List.mem_map.mp hrow'
    rw [publish_attempts]
    exact h.attempts row hrow
  · intro consumer messageId hid
    rw [ids_markDelivered] at hid
    exact h.unknown consumer messageId hid
  · intro row' hrow' hpending consumer
    obtain ⟨row, hrow, rfl⟩ := List.mem_map.mp hrow'
    obtain ⟨hbefore, hid⟩ := publish_pending hpending
    rw [publish_id, publish_attempts]
    have hother : point.row?.map (·.entry.id) ≠ some row.entry.id := by
      intro heq
      obtain ⟨due, hdue, hsame⟩ := Option.map_eq_some_iff.mp heq
      exact hid (hsame ▸ hround due hdue)
    exact (h.between hrow hbefore hother consumer).trans (Nat.le_add_right _ _)

theorem drops (h : Sound relay w (.markingUnrouted dues)) (now : ℤ)
    (report : OutboxDeliveryReport) :
    Sound relay
      { w with rows := markDelivered w.rows ((unrouted relay dues).map (·.entry.id)) now }
      (drainRows relay dues report) := by
  obtain ⟨hahead, hfetched⟩ := h.standing
  apply h.publishes now
  · intro due hdue
    cases hdue
  · intro row hrow hid consumer hconsumer htopic
    obtain ⟨due, hdue, heq⟩ := List.mem_map.mp hid
    have hmem := List.mem_of_mem_filter hdue
    obtain ⟨hentry, -⟩ := (hfetched due hmem).row h.ids hrow heq.symm
    refine absurd ⟨consumer, hconsumer, ?_⟩ (hahead.unrouted hmem (List.mem_map_of_mem hdue))
    rw [htopic, hentry]
  · apply standing_drainRows
    refine hahead.of_rows fun due hdue hrouted hbefore => ?_
    exact hbefore.markDelivered (fun hid => hahead.unrouted hdue hid hrouted) now

theorem marks (h : Sound relay w (.marking due outcome pass)) (now : ℤ)
    (report : OutboxDeliveryReport) :
    Sound relay { w with rows := markDelivered w.rows [due.entry.id] now }
      (drainRows relay pass.rest report) := by
  obtain ⟨hahead, hrouted, howed⟩ := h.standing
  have hfetched := hahead.fetched due List.mem_cons_self hrouted
  apply h.publishes now
  · intro due' hdue
    cases hdue
    exact List.mem_singleton_self _
  · intro row hrow hid consumer hconsumer htopic
    have heq := List.mem_singleton.mp hid
    obtain ⟨hentry, -⟩ := hfetched.row h.ids hrow heq
    rw [heq]
    rw [hentry] at htopic
    exact (howed consumer hconsumer htopic).resolve_left (List.not_mem_nil)
  · apply standing_drainRows
    refine hahead.tail.of_rows fun due' hdue _ hbefore => hbefore.markDelivered ?_ now
    rw [List.mem_singleton]
    exact hahead.ne hdue

theorem spent_deliver (h : Sound relay w (.delivering due consumer left failures pass))
    (delivery : Delivery) (hrow : point'.row? = some due) :
    Spent (w.deliver consumer due.entry.id delivery) point' := by
  obtain ⟨hrows, -, hpass, hpasses, hcut⟩ := deliver_same w consumer due.entry.id delivery
  intro row hmem hpending other
  rw [hrows] at hmem
  have hbefore := h.spent row hmem hpending other
  rw [inRound] at hbefore ⊢
  rw [hrow, hpass, hpasses, hcut]
  by_cases htried : other = consumer ∧ row.entry.id = due.entry.id
  · obtain ⟨rfl, hid⟩ := htried
    rw [hid, attempt_passes_self]
    rw [hid] at hbefore
    by_cases hpassed : w.pass ∈ w.passes other due.entry.id
    · simpa [Point.row?, hpassed] using hbefore
    · simp only [Point.row?, hpassed, and_false, if_false] at hbefore
      simp [hpassed]
      omega
  · rw [attempt_passes_other w htried]
    exact hbefore

theorem delivers (h : Sound relay w (.delivering due consumer left failures pass))
    (delivery : Delivery) :
    Sound relay (w.deliver consumer due.entry.id delivery)
      (deliverRow relay due left (failures ++ failuresOf consumer delivery) pass) := by
  obtain ⟨hrows, -, -, hpasses, hcut⟩ := deliver_same w consumer due.entry.id delivery
  have hround : Round relay w due pass.rest (consumer :: left ++ failures.map (·.consumer)) :=
    h.standing
  have hsettled : ∀ other messageId, Settled w other messageId →
      Settled (w.deliver consumer due.entry.id delivery) other messageId :=
    fun _ _ hdone => hdone.deliver consumer due.entry.id delivery
  have hspent : Spent (w.deliver consumer due.entry.id delivery)
      (deliverRow relay due left (failures ++ failuresOf consumer delivery) pass) :=
    h.spent_deliver delivery row?_deliverRow
  obtain ⟨row, hrow, hentry, -, hpending⟩ :=
    hround.ahead.fetched due List.mem_cons_self hround.routed
  refine ⟨by rw [hrows]; exact h.ids, h.counted.deliver _ _ _, h.losesNothing.mono hrows hsettled,
    by rw [hrows]; exact h.attempts, ?_, ?_, hspent, ?_⟩
  · intro other messageId hid
    rw [hrows] at hid
    rw [hpasses, attempt_passes_other]
    · exact h.unknown other messageId hid
    · rintro ⟨-, rfl⟩
      exact hid (hentry ▸ List.mem_map_of_mem hrow)
  · intro other messageId
    by_cases htried : other = consumer ∧ messageId = due.entry.id
    · obtain ⟨rfl, rfl⟩ := htried
      have hlength := hspent row (by rw [hrows]; exact hrow) hpending other
      have hone := inRound_le_one (w.deliver other due.entry.id delivery)
        (deliverRow relay due left (failures ++ failuresOf other delivery) pass) other row.entry.id
      have hattempts := h.attempts row hrow
      rw [hentry] at hlength hone
      dsimp only
      omega
    · rw [hpasses, attempt_passes_other w htried, hcut]
      exact h.tried other messageId
  · apply standing_deliverRow
    refine hround.mono (fun due hdue => by rw [hrows]; exact hdue) ?_ hsettled
    intro other hother
    simp only [List.map_append, List.mem_append, List.mem_cons] at hother ⊢
    rcases hother with (rfl | hleft) | hfailed
    · rcases settled_deliver h.counted other due.entry.id delivery with hfails | hdone
      · exact .inl (.inr (.inr hfails))
      · exact .inr hdone
    · exact .inl (.inl hleft)
    · exact .inl (.inr (.inl hfailed))

theorem buries {failures : List Failure}
    (h : Sound relay w (.deadLettering due failure failures pass)) (hrow : point'.row? = some due)
    (hstanding : Round relay { w with deadLetters := w.deadLetters ++ [letterOf due failure] } due
      pass.rest (failures.map (·.consumer)) → Standing relay
        { w with deadLetters := w.deadLetters ++ [letterOf due failure] } point') :
    Sound relay { w with deadLetters := w.deadLetters ++ [letterOf due failure] } point' := by
  have hsettled : ∀ consumer messageId, Settled w consumer messageId →
      Settled { w with deadLetters := w.deadLetters ++ [letterOf due failure] }
        consumer messageId := fun _ _ hdone => hdone.deadLetter _
  refine ⟨h.ids, h.counted, h.losesNothing.mono rfl hsettled, h.attempts, h.unknown, h.tried, ?_,
    hstanding ?_⟩
  · intro row hmem hpending consumer
    have hbefore := h.spent row hmem hpending consumer
    rw [inRound] at hbefore ⊢
    rw [hrow]
    exact hbefore
  · refine Round.mono h.standing (fun _ hdue => hdue) (fun consumer hconsumer => ?_) hsettled
    rw [List.map_cons, List.mem_cons] at hconsumer
    rcases hconsumer with rfl | hleft
    · refine .inr (.inr ⟨letterOf due failure, ?_, rfl, rfl⟩)
      exact List.mem_append_right _ (List.mem_singleton_self _)
    · exact .inl hleft

theorem defers (h : Sound relay w (.deferring due delayMs pass)) (availableAt : ℤ)
    (report : OutboxDeliveryReport) :
    Sound relay { w with rows := defer w.rows due.entry.id (due.attempts + 1) availableAt }
      (drainRows relay pass.rest report) := by
  obtain ⟨⟨hahead, hrouted, -⟩, hleft⟩ := h.standing
  have hfetched := hahead.fetched due List.mem_cons_self hrouted
  have hcases : ∀ row' ∈ defer w.rows due.entry.id (due.attempts + 1) availableAt, ∃ row ∈ w.rows,
      row'.entry = row.entry ∧ (row' = row ∧ row.entry.id ≠ due.entry.id ∨
        row.attempts = due.attempts ∧ row'.attempts = due.attempts + 1 ∧
          row.entry.id = due.entry.id) := by
    intro row' hrow'
    obtain ⟨row, hrow, rfl⟩ := List.mem_map.mp hrow'
    refine ⟨row, hrow, await_entry _ _ _ _, ?_⟩
    by_cases hid : row.entry.id = due.entry.id
    · obtain ⟨-, hattempts, hpending⟩ := hfetched.row h.ids hrow hid
      refine .inr ⟨hattempts, ?_, hid⟩
      rw [Row.await, if_pos ⟨hid, hpending⟩]
    · exact .inl ⟨await_other hid _ _, hid⟩
  refine ⟨?_, h.counted, ?_, ?_, ?_, h.tried, ?_, ?_⟩
  · rw [ids_defer]
    exact h.ids
  · intro row' hrow' hpublished consumer hconsumer htopic
    obtain ⟨row, hrow, hentry, -⟩ := hcases row' hrow'
    rw [hentry] at hpublished htopic ⊢
    exact h.losesNothing row hrow hpublished consumer hconsumer htopic
  · intro row' hrow'
    obtain ⟨row, hrow, -, ⟨rfl, -⟩ | ⟨-, hattempts, -⟩⟩ := hcases row' hrow'
    · exact h.attempts _ hrow
    · omega
  · intro consumer messageId hid
    rw [ids_defer] at hid
    exact h.unknown consumer messageId hid
  · intro row' hrow' hpending consumer
    obtain ⟨row, hmem, hentry, hrow | hrow⟩ := hcases row' hrow'
    · obtain ⟨rfl, hne⟩ := hrow
      have hround : (Point.deferring due delayMs pass).row?.map (·.entry.id) ≠
          some row'.entry.id := fun heq => hne (Option.some.inj heq).symm
      exact (h.between hmem hpending hround consumer).trans (Nat.le_add_right _ _)
    · rw [hentry] at hpending ⊢
      have hspent := h.spent row hmem hpending consumer
      have hone := inRound_le_one w (.deferring due delayMs pass) consumer row.entry.id
      dsimp only
      omega
  · apply standing_drainRows
    exact hahead.tail.of_rows fun due' hdue _ hbefore => hbefore.defer (hahead.ne hdue) _ _

theorem cuts (h : Sound relay w point) (hrow : point.row? = some due) :
    Sound relay (w.cut due.entry.id) (.idle none) := by
  have hcut : ∀ messageId, w.cutShort messageId ≤ (w.cut due.entry.id).cutShort messageId := by
    intro messageId
    by_cases hid : messageId = due.entry.id
    · subst hid
      simp [World.cut]
    · simp [World.cut, hid]
  refine ⟨h.ids, h.counted, h.losesNothing, h.attempts, h.unknown, ?_, ?_, trivial⟩
  · intro consumer messageId
    exact (h.tried consumer messageId).trans (Nat.add_le_add_left (hcut messageId) _)
  · intro row hmem hpending consumer
    by_cases hid : row.entry.id = due.entry.id
    · have hspent := h.spent row hmem hpending consumer
      have hone := inRound_le_one w point consumer row.entry.id
      have hmore : (w.cut due.entry.id).cutShort row.entry.id = w.cutShort row.entry.id + 1 := by
        simp [World.cut, hid]
      rw [hmore]
      change (w.passes consumer row.entry.id).length ≤ _
      omega
    · have hround : point.row?.map (·.entry.id) ≠ some row.entry.id := by
        rw [hrow]
        exact fun heq => hid (Option.some.inj heq).symm
      have hbetween := h.between hmem hpending hround consumer
      have hmore := hcut row.entry.id
      change (w.passes consumer row.entry.id).length ≤ _
      omega

theorem crashes (h : Sound relay w point) : Sound relay (w.crash point) (.idle none) := by
  unfold World.crash
  split
  · rename_i hrow
    refine ⟨h.ids, h.counted, h.losesNothing, h.attempts, h.unknown, h.tried, ?_, trivial⟩
    intro row hmem hpending consumer
    exact (h.between hmem hpending (by simp [hrow]) consumer).trans (Nat.le_add_right _ _)
  · rename_i due hrow
    exact h.cuts hrow

theorem step {s u : State} {l : Label} (h : Sound relay s.world s.point)
    (hst : Step relay s l u) : Sound relay u.world u.point := by
  obtain ⟨w, point⟩ := s
  cases step_move hst with
  | enqueues hpending hfresh => exact h.enqueues hpending hfresh
  | drains => exact h.drains _ _
  | drops => exact h.drops _ _
  | delivers => exact h.delivers _
  | deadLetters | deadLettersNext => exact h.buries rfl id
  | refused => exact h.cuts rfl
  | marks => exact h.marks _ _
  | defers => exact h.defers _ _
  | crashes => exact h.crashes

end Sound

end Invariant

theorem reachable_sound {relay : OutboxDeliveryRelay} {s : State}
    (h : Reachable (· = start) (Step relay) s) : Sound relay s.world s.point :=
  reachable_invariant (I := fun s => Sound relay s.world s.point)
    (fun s hs => by rw [hs]; exact Sound.start relay) (fun _ _ _ hi hst => hi.step hst) h

/-- In every run a row is published only when each of its consumers is settled, no effect is
applied twice, and no consumer is tried in more rounds than the schedule has, but for those that
were cut short. -/
theorem relay_accounts {relay : OutboxDeliveryRelay} {s : State}
    (h : Reachable (· = start) (Step relay) s) :
    LosesNothing relay s.world ∧ EffectsOnce s.world ∧ TriedWithin s.world fun messageId =>
      relay.retryDelaysMs.length + 1 + s.world.cutShort messageId := by
  have hsound := reachable_sound h
  refine ⟨hsound.losesNothing, fun consumer messageId => ?_, hsound.tried⟩
  rw [hsound.counted consumer messageId]
  split
  · exact Nat.le_refl 1
  · exact Nat.zero_le 1

def sampleConsumer : DirectConsumer := ⟨"orders.order.paid.v1", "finance.orders-paid"⟩

def sampleRelay : OutboxDeliveryRelay := ⟨[sampleConsumer], [], none⟩

def sampleEntry : OutboxEntry :=
  ⟨"m1", "orders.order.paid.v1", "order-1", [], .empty, .pending, none⟩

/-- The consumer fails, and the worker crashes before it has written the dead letter. -/
def interrupted : List Label :=
  [.enqueue sampleEntry, .drainOnce 0, .turn (.delivered (.throws "handler down" false)), .crash,
    .drainOnce 0, .turn (.delivered (.throws "handler down" false))]

def interruptedRun : List (Label × State) := attempt (next sampleRelay) start interrupted

theorem relay_accounts_interrupted :
    LosesNothing sampleRelay (lastState start interruptedRun).world ∧
      EffectsOnce (lastState start interruptedRun).world ∧
      TriedWithin (lastState start interruptedRun).world fun messageId =>
        sampleRelay.retryDelaysMs.length + 1 +
          (lastState start interruptedRun).world.cutShort messageId :=
  relay_accounts (Run.reachable (.start rfl) (run_attempt (next sampleRelay) start interrupted))

theorem relay_rounds_fail : ¬ ∀ (relay : OutboxDeliveryRelay) (tr : List (Label × State)),
    Run (Step relay) start tr → EveryStep (fun _ l => l ≠ .turn .refused) start tr →
      Always (fun s => LosesNothing relay s.world ∧ EffectsOnce s.world ∧
        TriedBefore s.world (relay.retryDelaysMs.length + 1)) start tr := by
  intro h
  have hlast := (h sampleRelay interruptedRun (run_attempt (next sampleRelay) start interrupted)
    (by decide)).last.2.2 sampleConsumer "m1"
  have hnone : (lastState start interruptedRun).world.deadLetters = [] := by decide
  rw [hnone] at hlast
  exact absurd (hlast (by simp)) (by decide)

end Messaging
