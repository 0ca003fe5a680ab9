import Mathlib.Data.List.MinMax
import Lumo.KafkaConsumer

/-! # The deliveries come to rest

What decodes everywhere is delivered finitely often, whatever fails. How often a group runs, and
whether it dead-letters once, is another matter: the retry topic is read by every group. -/
namespace Kafka

open Builtins LabelledRuns

variable {fleet : Fleet} {s u : State} {l : Label} {d : Delivery} {copy : Copy} {group : String}

def Decodes (fleet : Fleet) (copy : Copy) : Prop :=
  ∀ group ∈ fleet.groups, (copy.envelope fleet group).isSome = true

instance (fleet : Fleet) (copy : Copy) : Decidable (Decodes fleet copy) :=
  inferInstanceAs (Decidable (∀ _ ∈ _, _))

theorem Follows.decodes {retry : Copy} (h : Follows fleet group copy retry)
    (hdecodes : Decodes fleet copy) : Decodes fleet retry := by
  intro other hother
  rw [Copy.envelope, h.decoded]
  exact hdecodes other hother

theorem mem_published {copy : Copy} :
    d ∈ published fleet copy ↔ d.group ∈ fleet.groups ∧ d.copy = copy ∧ d.phase = .fetched := by
  constructor
  · intro h
    obtain ⟨group, hgroup, rfl⟩ := List.mem_map.mp h
    exact ⟨hgroup, rfl, rfl⟩
  · rintro ⟨hgroup, rfl, hphase⟩
    refine List.mem_map.mpr ⟨d.group, hgroup, ?_⟩
    rw [← hphase]

def longest (fleet : Fleet) : ℕ :=
  (fleet.groups.map fun group => maxAttempts (fleet.schedule group)).foldr max 0

theorem le_longest (h : group ∈ fleet.groups) :
    maxAttempts (fleet.schedule group) ≤ longest fleet := by
  exact List.le_max_of_le (List.mem_map_of_mem h) le_rfl

/-- What a delivery can still cost when there are so many retries left. -/
def cost (groups : ℕ) : ℕ → ℕ
  | 0 => 2
  | left + 1 => 2 + groups * cost groups left

theorem two_le_cost (groups left : ℕ) : 2 ≤ cost groups left := by
  cases left <;> simp [cost]

def weight (fleet : Fleet) (d : Delivery) : ℕ :=
  match d.phase with
  | .fetched => cost fleet.groups.length (longest fleet - d.copy.attempt)
  | .handling _ => cost fleet.groups.length (longest fleet - d.copy.attempt) - 1

theorem weight_pos (fleet : Fleet) (d : Delivery) : 0 < weight fleet d := by
  have htwo := two_le_cost fleet.groups.length (longest fleet - d.copy.attempt)
  unfold weight
  split <;> omega

def workload (fleet : Fleet) (s : State) : ℕ := (s.deliveries.map (weight fleet)).sum

theorem workload_published (fleet : Fleet) (copy : Copy) :
    ((published fleet copy).map (weight fleet)).sum =
      fleet.groups.length * cost fleet.groups.length (longest fleet - copy.attempt) := by
  simp [published, List.map_map, Function.comp_def, weight]

def Settling (fleet : Fleet) (s : State) : Prop :=
  ∀ d ∈ s.deliveries, d.group ∈ fleet.groups ∧ Decodes fleet d.copy

theorem Settling.step (h : Settling fleet s) (hst : Step fleet s l u) : Settling fleet u := by
  obtain ⟨hmem, hmove⟩ := step_move hst
  have hd := h _ hmem
  have herase : ∀ e ∈ s.deliveries.erase l.delivery, e.group ∈ fleet.groups ∧
      Decodes fleet e.copy := fun e he => h e (List.mem_of_mem_erase he)
  cases hmove with
  | thrown => exact h
  | acknowledged | handled | deadLettered => exact herase
  | begins =>
    intro e he
    rcases List.mem_append.mp he with he | he
    · exact herase e he
    · rw [List.mem_singleton.mp he]
      exact hd
  | retried _ _ _ retry hretry =>
    intro e he
    rcases List.mem_append.mp he with he | he
    · exact herase e he
    · obtain ⟨hgroup, hcopy, -⟩ := mem_published.mp he
      rw [hcopy]
      exact ⟨hgroup, hretry.decodes hd.2⟩

/-- Each delivery leaves less to do. -/
theorem Settling.decreases (h : Settling fleet s) (hst : Step fleet s l u) :
    workload fleet u < workload fleet s := by
  obtain ⟨hmem, hmove⟩ := step_move hst
  obtain ⟨hgroup, hdecodes⟩ := h _ hmem
  have hsum : weight fleet l.delivery + _ = workload fleet s :=
    List.sum_map_erase (weight fleet) hmem
  have hpos := weight_pos fleet l.delivery
  cases hmove with
  | thrown _ hnone =>
    have hsome := hdecodes _ hgroup
    rw [hnone] at hsome
    cases hsome
  | acknowledged | handled | deadLettered =>
    change ((s.deliveries.erase l.delivery).map (weight fleet)).sum < workload fleet s
    omega
  | begins envelope hphase =>
    have htwo := two_le_cost fleet.groups.length (longest fleet - l.delivery.copy.attempt)
    have hweight : weight fleet (l.delivery.begun envelope) + 1 = weight fleet l.delivery := by
      simp only [weight, hphase, Delivery.begun]
      omega
    change ((s.deliveries.erase l.delivery ++ [l.delivery.begun envelope]).map
      (weight fleet)).sum < workload fleet s
    rw [List.map_append, List.sum_append, List.map_singleton, List.sum_singleton]
    omega
  | retried envelope hphase hleft retry hretry =>
    have hlongest := le_longest hgroup
    obtain ⟨left, hroom⟩ : ∃ left, longest fleet - l.delivery.copy.attempt = left + 1 :=
      ⟨longest fleet - l.delivery.copy.attempt - 1, by omega⟩
    have hnext : longest fleet - retry.attempt = left := by
      rw [hretry.attempt]
      omega
    have hweight : weight fleet l.delivery =
        1 + fleet.groups.length * cost fleet.groups.length left := by
      simp only [weight, hphase, hroom, cost]
      omega
    have hpublished := workload_published fleet retry
    rw [hnext] at hpublished
    change ((s.deliveries.erase l.delivery ++ published fleet retry).map
      (weight fleet)).sum < workload fleet s
    rw [List.map_append, List.sum_append, hpublished]
    omega

theorem Settling.length_le (h : Settling fleet s) {tr : List (Label × State)}
    (hr : Run (Step fleet) s tr) : tr.length ≤ workload fleet s := by
  induction tr generalizing s with
  | nil => exact Nat.zero_le _
  | cons x rest ih =>
    have hrest := ih (h.step hr.1) hr.2
    have hless := h.decreases hr.1
    rw [List.length_cons]
    omega

theorem exists_due (copy : Copy) : ∃ now, isDue copy now := by
  unfold isDue
  split
  · exact ⟨0, trivial⟩
  · rename_i retry _
    exact ⟨⌈retry.dueAtMs⌉₊, Nat.le_ceil _⟩

theorem exists_step (h : d ∈ s.deliveries) : ∃ l u, Step fleet s l u := by
  obtain ⟨now, hdue⟩ := exists_due d.copy
  refine ⟨⟨d, now, .handled⟩, ?_⟩
  unfold Step next
  simp only [h, not_true_eq_false, if_false, hdue]
  split
  · split
    · exact ⟨_, rfl⟩
    · split
      · exact ⟨_, rfl⟩
      · exact ⟨_, rfl⟩
  · exact ⟨_, rfl⟩

def Rests (fleet : Fleet) (s : State) : Prop :=
  ∃ n, ∀ tr, Run (Step fleet) s tr → tr.length ≤ n ∧
    ((∀ l u, ¬ Step fleet (lastState s tr) l u) → (lastState s tr).deliveries = [])

theorem Settling.rests (h : Settling fleet s) : Rests fleet s := by
  refine ⟨workload fleet s, fun tr hr => ⟨h.length_le hr, fun hstuck => ?_⟩⟩
  rw [List.eq_nil_iff_forall_not_mem]
  intro d hd
  obtain ⟨l, u, hst⟩ : ∃ l u, Step fleet (lastState s tr) l u := exists_step hd
  exact hstuck l u hst

end Kafka

/-! ## Groups that retry on their own

A group runs its handler within its schedule and dead-letters once as long as it is not handed
what another group has scheduled. The retry topic hands every retry to every group, so for all
failures this holds of a group alone in its topic, or of a message that nobody retries. -/
namespace Kafka

open Builtins LabelledRuns

variable {fleet : Fleet} {s u : State} {l : Label} {d : Delivery} {copy : Copy} {group : String}

/-- The published message itself, or a retry that this group has scheduled. -/
def Own (d : Delivery) : Prop :=
  d.copy.topic = .main ∨ d.copy.bag.find? "x-retry-consumer-group" = some d.group

instance (d : Delivery) : Decidable (Own d) := inferInstanceAs (Decidable (_ ∨ _))

def deadLettersOf (s : State) (group : String) : ℕ :=
  s.deadLetters.countP fun letter => letter.consumerGroup = group

/-- What is asked of the groups, and of the deliveries that are left. -/
structure Sound (fleet : Fleet) (s : State) : Prop where
  runs : ∀ group ∈ fleet.groups, s.runs group ≤ maxAttempts (fleet.schedule group) + 1
  deadLetters : ∀ group ∈ fleet.groups, deadLettersOf s group ≤ 1
  rests : Rests fleet s

/-- A group that is handed the retry of another has processed the message already. -/
def Confined (fleet : Fleet) (s : State) (l : Label) : Prop :=
  l.delivery.phase = .fetched → ¬ Own l.delivery →
    ∀ envelope ∈ l.delivery.copy.envelope fleet l.delivery.group,
      envelope.messageId ∈ s.processed l.delivery.group

instance (fleet : Fleet) (s : State) (l : Label) : Decidable (Confined fleet s l) :=
  inferInstanceAs (Decidable (_ → _ → ∀ _ ∈ _, _))

/-- The message has just been published to the topic; the stores hold what they held. -/
structure Published (fleet : Fleet) (copy : Copy) (s : State) : Prop where
  topic : copy.topic = .main
  deliveries : s.deliveries = published fleet copy
  runs : ∀ group, s.runs group = 0
  deadLetters : s.deadLetters = []

def owned (group : String) (d : Delivery) : Bool := d.group = group ∧ Own d

/-- A group has run once for each attempt of the one delivery of its own that is left. -/
structure Chained (fleet : Fleet) (s : State) (group : String) : Prop where
  handling : ∀ d ∈ s.deliveries, d.group = group → d.phase ≠ .fetched → Own d
  counts : (s.deliveries.countP (owned group) = 0 ∧
      s.runs group ≤ maxAttempts (fleet.schedule group) + 1 ∧ deadLettersOf s group ≤ 1) ∨
    (s.deliveries.countP (owned group) = 1 ∧ deadLettersOf s group = 0 ∧
      s.runs group ≤ maxAttempts (fleet.schedule group) ∧
      ∀ d ∈ s.deliveries, owned group d → s.runs group ≤ d.copy.attempt)

theorem countP_erase_owned (hmem : d ∈ s.deliveries) (h : owned group d = true) :
    (s.deliveries.erase d).countP (owned group) + 1 = s.deliveries.countP (owned group) := by
  rw [(List.perm_cons_erase hmem).countP_eq, List.countP_cons_of_pos h]

theorem countP_erase_other (hmem : d ∈ s.deliveries) (h : ¬ owned group d = true) :
    (s.deliveries.erase d).countP (owned group) = s.deliveries.countP (owned group) := by
  rw [(List.perm_cons_erase hmem).countP_eq, List.countP_cons_of_neg h]

theorem countP_published_own {retry : Copy} (hgroup : group ∈ fleet.groups)
    (hretry : Follows fleet group copy retry) :
    (published fleet retry).countP (owned group) = 1 := by
  have howned (other : String) : owned group ⟨other, retry, .fetched⟩ = decide (other = group) := by
    by_cases hother : other = group
    · subst hother
      simp [owned, Own, hretry.scheduledBy]
    · simp [owned, hother]
  rw [published, List.countP_map]
  simp only [Function.comp_def, howned]
  rw [← List.count_eq_one_of_mem fleet.distinct hgroup, List.count_eq_countP]
  apply List.countP_congr
  intro other _
  simp

theorem countP_published_other {retry : Copy} {other : String} (hne : other ≠ group)
    (hretry : Follows fleet group copy retry) :
    (published fleet retry).countP (owned other) = 0 := by
  rw [List.countP_eq_zero]
  intro d hd howned
  obtain ⟨-, hcopy, -⟩ := mem_published.mp hd
  obtain ⟨rfl, hown⟩ := of_decide_eq_true howned
  rw [Own, hcopy, hretry.topic, hretry.scheduledBy] at hown
  rcases hown with htopic | hscheduled
  · cases htopic
  · exact hne (Option.some.inj hscheduled).symm

theorem deadLettersOf_append (s : State) (letter : DeadLetter) (group : String) :
    (s.deadLetters ++ [letter]).countP (fun letter => letter.consumerGroup = group) =
      deadLettersOf s group + if letter.consumerGroup = group then 1 else 0 := by
  rw [List.countP_append, List.countP_singleton]
  simp [deadLettersOf]

namespace Chained

theorem start (h : Published fleet copy s) (group : String) : Chained fleet s group := by
  have hnone : deadLettersOf s group = 0 := by
    rw [deadLettersOf, h.deadLetters]
    rfl
  have hcount : s.deliveries.countP (owned group) ≤ 1 := by
    rw [h.deliveries, published, List.countP_map]
    refine le_trans (List.countP_mono_left fun other _ howned => ?_)
      (List.nodup_iff_count_le_one.mp fleet.distinct group)
    exact beq_iff_eq.mpr (of_decide_eq_true howned).1
  refine ⟨fun d hd _ hphase => ?_, ?_⟩
  · rw [h.deliveries] at hd
    exact absurd (mem_published.mp hd).2.2 hphase
  · rw [h.runs group]
    rcases Nat.le_one_iff_eq_zero_or_eq_one.mp hcount with hzero | hone
    · exact .inl ⟨hzero, Nat.zero_le _, hnone.le.trans (Nat.zero_le _)⟩
    · exact .inr ⟨hone, hnone, Nat.zero_le _, fun _ _ _ => Nat.zero_le _⟩

theorem of_owned (h : Chained fleet s group) (hmem : d ∈ s.deliveries)
    (howned : owned group d = true) :
    (s.deliveries.erase d).countP (owned group) = 0 ∧ deadLettersOf s group = 0 ∧
      s.runs group ≤ maxAttempts (fleet.schedule group) ∧ s.runs group ≤ d.copy.attempt := by
  have herase := countP_erase_owned hmem howned
  rcases h.counts with ⟨hzero, -⟩ | ⟨hone, hnone, hruns, hattempt⟩
  · omega
  · exact ⟨by omega, hnone, hruns, hattempt d hmem howned⟩

theorem handling_erase (h : Chained fleet s group) (d : Delivery) :
    ∀ e ∈ s.deliveries.erase d, e.group = group → e.phase ≠ .fetched → Own e :=
  fun e he => h.handling e (List.mem_of_mem_erase he)

/-- A delivery that the group may run on. -/
theorem step_owned (h : Chained fleet s group) (hgroup : group ∈ fleet.groups)
    (hmem : d ∈ s.deliveries) (howned : owned group d = true) (hmove : Move fleet s d u) :
    Chained fleet u group := by
  obtain ⟨hrest, hnone, hruns, hattempt⟩ := h.of_owned hmem howned
  obtain ⟨rfl, hown⟩ := of_decide_eq_true howned
  have hran : Function.update s.runs d.group (s.runs d.group + 1) d.group =
      s.runs d.group + 1 := Function.update_self _ _ _
  cases hmove with
  | thrown => exact h
  | acknowledged =>
    exact ⟨h.handling_erase d, .inl ⟨hrest, Nat.le_succ_of_le hruns, hnone.le.trans zero_le_one⟩⟩
  | begins envelope =>
    have howned' : owned d.group (d.begun envelope) = true := decide_eq_true ⟨rfl, hown⟩
    refine ⟨fun e he hegroup hphase => ?_, .inr ⟨?_, hnone, hruns, fun e he heowned => ?_⟩⟩
    · rcases List.mem_append.mp he with he | he
      · exact h.handling_erase d e he hegroup hphase
      · rw [List.mem_singleton.mp he]
        exact hown
    · rw [List.countP_append, hrest, List.countP_singleton, howned']
      rfl
    · rcases List.mem_append.mp he with he | he
      · exact absurd heowned (List.countP_eq_zero.mp hrest e he)
      · rw [List.mem_singleton.mp he]
        exact hattempt
  | handled =>
    refine ⟨h.handling_erase d, .inl ⟨hrest, ?_, hnone.le.trans zero_le_one⟩⟩
    dsimp only
    omega
  | deadLettered envelope hphase hlast letter hletter =>
    refine ⟨h.handling_erase d, .inl ⟨hrest, ?_, ?_⟩⟩
    · dsimp only
      omega
    · rw [deadLettersOf, deadLettersOf_append, hnone, hletter, if_pos rfl]
  | retried envelope hphase hleft retry hretry =>
    refine ⟨fun e he hegroup hephase => ?_, .inr ⟨?_, hnone, ?_, fun e he heowned => ?_⟩⟩
    · rcases List.mem_append.mp he with he | he
      · exact h.handling_erase d e he hegroup hephase
      · exact absurd (mem_published.mp he).2.2 hephase
    · rw [List.countP_append, hrest, countP_published_own hgroup hretry]
    · dsimp only
      omega
    · dsimp only
      rcases List.mem_append.mp he with he | he
      · exact absurd heowned (List.countP_eq_zero.mp hrest e he)
      · rw [(mem_published.mp he).2.1, hretry.attempt]
        omega

/-- A delivery to another group, or of what another group has scheduled. -/
theorem step_other (h : Chained fleet s group) (hmem : d ∈ s.deliveries)
    (hother : ¬ owned group d = true)
    (hconfined : d.phase = .fetched → ¬ Own d → ∀ envelope ∈ d.copy.envelope fleet d.group,
      envelope.messageId ∈ s.processed d.group)
    (hmove : Move fleet s d u) : Chained fleet u group := by
  have hrest := countP_erase_other hmem hother
  -- the group itself is only handed what it has processed
  have hgroup (hphase : d.phase ≠ .fetched) : group ≠ d.group := by
    rintro rfl
    exact hother (decide_eq_true ⟨rfl, h.handling d hmem rfl hphase⟩)
  have hkept : ∀ deliveries : List Delivery, deliveries.countP (owned group) = 0 →
      (∀ e ∈ deliveries, e.group = group → e.phase ≠ .fetched → Own e) →
      ∀ processed runs letters, runs group = s.runs group →
      letters.countP (fun letter : DeadLetter => letter.consumerGroup = group) =
        deadLettersOf s group →
      Chained fleet ⟨s.deliveries.erase d ++ deliveries, processed, runs, letters⟩ group := by
    intro deliveries hnone hhandling processed runs letters hruns hletters
    refine ⟨fun e he => ?_, ?_⟩
    · rcases List.mem_append.mp he with he | he
      · exact h.handling_erase d e he
      · exact hhandling e he
    · rw [List.countP_append, hrest, hnone, deadLettersOf, hletters]
      dsimp only
      rw [hruns]
      refine h.counts.imp_right fun ⟨hone, hzero, hle, hattempt⟩ =>
        ⟨hone, hzero, hle, fun e he heowned => ?_⟩
      rcases List.mem_append.mp he with he | he
      · exact hattempt e (List.mem_of_mem_erase he) heowned
      · exact absurd heowned (List.countP_eq_zero.mp hnone e he)
  cases hmove with
  | thrown => exact h
  | acknowledged =>
    have hsame := hkept [] rfl nofun s.processed s.runs s.deadLetters rfl rfl
    rwa [List.append_nil] at hsame
  | begins envelope hphase hdecode hprocessed =>
    have hne : group ≠ d.group := by
      rintro rfl
      refine hprocessed (hconfined hphase (fun hown => ?_) envelope hdecode)
      exact hother (decide_eq_true ⟨rfl, hown⟩)
    refine hkept [d.begun envelope] ?_ ?_ _ _ _ rfl rfl
    · rw [List.countP_eq_zero]
      intro e he howned
      rw [List.mem_singleton.mp he] at howned
      exact hne (of_decide_eq_true howned).1.symm
    · intro e he hegroup
      rw [List.mem_singleton.mp he] at hegroup
      exact absurd hegroup.symm hne
  | handled envelope hphase processed =>
    have hne := hgroup (by rw [hphase]; exact Phase.noConfusion)
    have hsame := hkept [] rfl nofun processed
      (Function.update s.runs d.group (s.runs d.group + 1)) s.deadLetters
      (Function.update_of_ne hne _ _) rfl
    rwa [List.append_nil] at hsame
  | deadLettered envelope hphase hlast letter hletter =>
    have hne := hgroup (by rw [hphase]; exact Phase.noConfusion)
    have hsame := hkept [] rfl nofun s.processed
      (Function.update s.runs d.group (s.runs d.group + 1)) (s.deadLetters ++ [letter])
      (Function.update_of_ne hne _ _) (by
        rw [deadLettersOf_append, if_neg (hletter ▸ hne.symm), Nat.add_zero])
    rwa [List.append_nil] at hsame
  | retried envelope hphase hleft retry hretry =>
    have hne := hgroup (by rw [hphase]; exact Phase.noConfusion)
    refine hkept _ (countP_published_other hne hretry) (fun e he _ hephase => ?_) _ _ _
      (Function.update_of_ne hne _ _) rfl
    exact absurd (mem_published.mp he).2.2 hephase

theorem step (h : Chained fleet s group) (hgroup : group ∈ fleet.groups)
    (hst : Step fleet s l u) (hconfined : Confined fleet s l) : Chained fleet u group := by
  obtain ⟨hmem, hmove⟩ := step_move hst
  by_cases howned : owned group l.delivery = true
  · exact h.step_owned hgroup hmem howned hmove
  · exact h.step_other hmem howned hconfined hmove

theorem bounds (h : Chained fleet s group) :
    s.runs group ≤ maxAttempts (fleet.schedule group) + 1 ∧ deadLettersOf s group ≤ 1 := by
  rcases h.counts with ⟨-, hruns, hletters⟩ | ⟨-, hnone, hruns, -⟩
  · exact ⟨hruns, hletters⟩
  · exact ⟨Nat.le_succ_of_le hruns, hnone.le.trans zero_le_one⟩

end Chained

/-- What holds of the deliveries and of every group along a run. -/
structure Standing (fleet : Fleet) (s : State) : Prop where
  settling : Settling fleet s
  chained : ∀ group ∈ fleet.groups, Chained fleet s group

theorem Standing.sound (h : Standing fleet s) : Sound fleet s where
  runs group hgroup := (h.chained group hgroup).bounds.1
  deadLetters group hgroup := (h.chained group hgroup).bounds.2
  rests := h.settling.rests

theorem Published.standing (h : Published fleet copy s) (hdecodes : Decodes fleet copy) :
    Standing fleet s := by
  refine ⟨fun d hd => ?_, fun group _ => .start h group⟩
  rw [h.deliveries] at hd
  obtain ⟨hgroup, hcopy, -⟩ := mem_published.mp hd
  rw [hcopy]
  exact ⟨hgroup, hdecodes⟩

theorem always_sound (h : Published fleet copy s) (hdecodes : Decodes fleet copy)
    {tr : List (Label × State)} (hr : Run (Step fleet) s tr)
    (hconfined : EveryStep (Confined fleet) s tr) : Always (Sound fleet) s tr := by
  have halways : Always (Standing fleet) s tr :=
    always_of_everyStep (G := Confined fleet) (fun _ _ _ h hst hconfined =>
      ⟨h.settling.step hst, fun group hgroup =>
        (h.chained group hgroup).step hgroup hst hconfined⟩) (h.standing hdecodes) hr hconfined
  exact halways.mono fun _ => Standing.sound

/-- The group is alone in its topic, or nobody has a retry left for the message. -/
def Undisturbed (fleet : Fleet) (copy : Copy) : Prop :=
  fleet.groups.length ≤ 1 ∨
    ∀ group ∈ fleet.groups, maxAttempts (fleet.schedule group) ≤ copy.attempt

/-- Every delivery is to a group of the fleet, of the message itself or of what a group that
still had an attempt left has scheduled. -/
def Traced (fleet : Fleet) (copy : Copy) (s : State) : Prop :=
  ∀ d ∈ s.deliveries, d.group ∈ fleet.groups ∧ (d.copy = copy ∨
    (∃ group ∈ fleet.groups, copy.attempt < maxAttempts (fleet.schedule group)) ∧
    ∃ group ∈ fleet.groups, d.copy.bag.find? "x-retry-consumer-group" = some group)

theorem Traced.step (h : Traced fleet copy s) (hst : Step fleet s l u) : Traced fleet copy u := by
  obtain ⟨hmem, hmove⟩ := step_move hst
  have herase : ∀ e ∈ s.deliveries.erase l.delivery, _ :=
    fun e he => h e (List.mem_of_mem_erase he)
  cases hmove with
  | thrown => exact h
  | acknowledged | handled | deadLettered => exact herase
  | begins =>
    intro e he
    rcases List.mem_append.mp he with he | he
    · exact herase e he
    · rw [List.mem_singleton.mp he]
      exact h l.delivery hmem
  | retried _ _ hleft retry hretry =>
    obtain ⟨hgroup, horigin⟩ := h _ hmem
    intro e he
    rcases List.mem_append.mp he with he | he
    · exact herase e he
    · obtain ⟨hegroup, hcopy, -⟩ := mem_published.mp he
      rw [hcopy]
      refine ⟨hegroup, .inr ⟨?_, _, hgroup, hretry.scheduledBy⟩⟩
      rcases horigin with horigin | ⟨hroom, -⟩
      · rw [horigin] at hleft
        exact ⟨_, hgroup, hleft⟩
      · exact hroom

theorem Traced.own (h : Traced fleet copy s) (htopic : copy.topic = .main)
    (hundisturbed : Undisturbed fleet copy) (hmem : d ∈ s.deliveries) : Own d := by
  obtain ⟨hgroup, hcopy | ⟨⟨other, hother, hroom⟩, group, hscheduler, hscheduled⟩⟩ := h d hmem
  · exact .inl (hcopy ▸ htopic)
  rcases hundisturbed with halone | hnone
  · have heq : d.group = group := by
      match hgroups : fleet.groups, halone with
      | [only], _ =>
        rw [hgroups] at hgroup hscheduler
        rw [List.mem_singleton.mp hgroup, List.mem_singleton.mp hscheduler]
      | [], _ =>
        rw [hgroups] at hgroup
        cases hgroup
    exact .inr (heq ▸ hscheduled)
  · exact absurd (hnone other hother) (Nat.not_le_of_lt hroom)

theorem always_undisturbed (h : Published fleet copy s) (hdecodes : Decodes fleet copy)
    (hundisturbed : Undisturbed fleet copy) {tr : List (Label × State)}
    (hr : Run (Step fleet) s tr) : Always (Sound fleet) s tr := by
  have htraced : Traced fleet copy s := by
    intro d hd
    rw [h.deliveries] at hd
    obtain ⟨hgroup, hcopy, -⟩ := mem_published.mp hd
    exact ⟨hgroup, .inl hcopy⟩
  refine always_sound h hdecodes hr ?_
  refine everyStep_of_taken (I := Traced fleet copy) (fun _ _ _ ht hst => ht.step hst)
    (fun _ _ _ ht hst _ hown => ?_) htraced hr
  exact absurd (ht.own h.topic hundisturbed (step_move hst).1) hown

theorem fetches (hmem : ⟨group, copy, .fetched⟩ ∈ s.deliveries) {envelope : Envelope}
    (hdecode : copy.envelope fleet group = some envelope) (hnone : s.processed group = []) :
    ∃ now, Step fleet s ⟨⟨group, copy, .fetched⟩, now, .handled⟩ { s with
      deliveries := s.deliveries.erase ⟨group, copy, .fetched⟩ ++
        [⟨group, copy, .handling envelope⟩] } := by
  obtain ⟨now, hdue⟩ := exists_due copy
  refine ⟨now, ?_⟩
  simp [Step, next, hmem, hdue, hdecode, hnone, Delivery.begun]

/-- A group fetches a delivery, and its handler fails. -/
theorem fails (hmem : ⟨group, copy, .fetched⟩ ∈ s.deliveries)
    (hdecode : (copy.envelope fleet group).isSome = true) (hnone : s.processed group = []) :
    ∃ tr, Run (Step fleet) s tr ∧ (lastState s tr).processed = s.processed ∧
      ((maxAttempts (fleet.schedule group) ≤ copy.attempt ∧
        deadLettersOf (lastState s tr) group = deadLettersOf s group + 1 ∧
        (lastState s tr).deliveries.Perm (s.deliveries.erase ⟨group, copy, .fetched⟩)) ∨
      (copy.attempt < maxAttempts (fleet.schedule group) ∧ ∃ retry,
        Follows fleet group copy retry ∧
        (lastState s tr).deadLetters = s.deadLetters ∧
        (lastState s tr).deliveries.Perm
          (s.deliveries.erase ⟨group, copy, .fetched⟩ ++ published fleet retry))) := by
  obtain ⟨envelope, hdecode⟩ := Option.isSome_iff_exists.mp hdecode
  obtain ⟨now, hfetch⟩ := fetches hmem hdecode hnone
  obtain ⟨t, ht⟩ : ∃ t : State, t = { s with
      deliveries := s.deliveries.erase ⟨group, copy, .fetched⟩ ++
        [⟨group, copy, .handling envelope⟩] } := ⟨_, rfl⟩
  rw [← ht] at hfetch
  have hhandling : ⟨group, copy, .handling envelope⟩ ∈ t.deliveries := by
    rw [ht]
    exact List.mem_append_right _ (List.mem_singleton_self _)
  have hfail : Step fleet t ⟨⟨group, copy, .handling envelope⟩, 0, .failed ""⟩
      (handle fleet t ⟨group, copy, .handling envelope⟩ envelope 0 (.failed "")) := by
    simp [Step, next, hhandling]
  have hperm : (t.deliveries.erase ⟨group, copy, .handling envelope⟩).Perm
      (s.deliveries.erase ⟨group, copy, .fetched⟩) := by
    rw [ht]
    have hcons := (List.perm_append_singleton (⟨group, copy, .handling envelope⟩ : Delivery)
      (s.deliveries.erase ⟨group, copy, .fetched⟩)).erase ⟨group, copy, .handling envelope⟩
    rwa [List.erase_cons_head] at hcons
  refine ⟨[(_, t), (_, _)], ⟨hfetch, hfail, trivial⟩, ?_⟩
  simp only [lastState]
  rcases schedule_cases fleet group copy envelope.messageId "" 0 with
    ⟨hlast, letter, hletter, hscheduled⟩ | ⟨hleft, retry, hretry, hscheduled⟩
  · simp only [handle, hscheduled]
    refine ⟨by rw [ht], .inl ⟨hlast, ?_, hperm⟩⟩
    rw [deadLettersOf, deadLettersOf_append, hletter, if_pos rfl, ht]
    rfl
  · simp only [handle, hscheduled]
    exact ⟨by rw [ht], .inr ⟨hleft, retry, hretry, by rw [ht], hperm.append_right _⟩⟩

/-- A group that fails at a delivery again and again ends up with one more dead letter, and with
the other deliveries as they were. -/
theorem exhausts (hgroup : group ∈ fleet.groups) (left : ℕ) : ∀ (s : State) (copy : Copy),
    maxAttempts (fleet.schedule group) - copy.attempt = left → Decodes fleet copy →
    ⟨group, copy, .fetched⟩ ∈ s.deliveries → s.processed group = [] →
    ∃ tr, Run (Step fleet) s tr ∧ (lastState s tr).processed = s.processed ∧
      deadLettersOf (lastState s tr) group = deadLettersOf s group + 1 ∧
      ∀ e ∈ s.deliveries.erase ⟨group, copy, .fetched⟩, e ∈ (lastState s tr).deliveries := by
  induction left with
  | zero =>
    intro s copy hleft hdecodes hmem hnone
    obtain ⟨tr, hr, hprocessed, ⟨-, hdead, hperm⟩ | ⟨hlt, -⟩⟩ :=
      fails hmem (hdecodes group hgroup) hnone
    · exact ⟨tr, hr, hprocessed, hdead, fun e he => hperm.mem_iff.mpr he⟩
    · omega
  | succ left ih =>
    intro s copy hleft hdecodes hmem hnone
    obtain ⟨tr, hr, hprocessed, ⟨hle, -⟩ | ⟨-, retry, hretry, hletters, hperm⟩⟩ :=
      fails hmem (hdecodes group hgroup) hnone
    · omega
    have hnext : ⟨group, retry, .fetched⟩ ∈ (lastState s tr).deliveries :=
      hperm.mem_iff.mpr (List.mem_append_right _ (mem_published.mpr ⟨hgroup, rfl, rfl⟩))
    obtain ⟨tr', hr', hprocessed', hdead', hkept⟩ := ih (lastState s tr) retry
      (by rw [hretry.attempt]; omega) (hretry.decodes hdecodes) hnext (hprocessed ▸ hnone)
    refine ⟨tr ++ tr', hr.append hr', ?_⟩
    rw [lastState_append]
    refine ⟨hprocessed'.trans hprocessed, ?_, fun e he => hkept e ?_⟩
    · rw [hdead', deadLettersOf, hletters]
      rfl
    · have herase : ((lastState s tr).deliveries.erase ⟨group, retry, .fetched⟩).Perm
          (s.deliveries.erase ⟨group, copy, .fetched⟩ ++
            (published fleet retry).erase ⟨group, retry, .fetched⟩) := by
        have hcons := List.perm_cons_erase (mem_published.mpr
          (⟨hgroup, rfl, rfl⟩ : (⟨group, retry, .fetched⟩ : Delivery).group ∈ fleet.groups ∧ _))
        have hall := (hperm.trans (hcons.append_left _)).trans List.perm_middle
        have hgone := hall.erase ⟨group, retry, .fetched⟩
        rwa [List.erase_cons_head] at hgone
      exact herase.mem_iff.mpr (List.mem_append_left _ he)

/-- The message as it is published where no store holds anything. -/
def opening (fleet : Fleet) (copy : Copy) : State :=
  ⟨published fleet copy, fun _ => [], fun _ => 0, []⟩

theorem opening_published (htopic : copy.topic = .main) :
    Published fleet copy (opening fleet copy) :=
  ⟨htopic, rfl, fun _ => rfl, rfl⟩

theorem not_rests (hgroup : group ∈ fleet.groups) (hnone : copy.envelope fleet group = none) :
    ¬ Rests fleet (opening fleet copy) := by
  rintro ⟨n, hn⟩
  obtain ⟨now, hdue⟩ := exists_due copy
  have hmem : (⟨group, copy, .fetched⟩ : Delivery) ∈ published fleet copy :=
    mem_published.mpr ⟨hgroup, rfl, rfl⟩
  have hst : Step fleet (opening fleet copy) ⟨⟨group, copy, .fetched⟩, now, .handled⟩
      (opening fleet copy) := by
    simp [Step, next, opening, hmem, hdue, hnone]
  have hrun : ∀ m, Run (Step fleet) (opening fleet copy) (List.replicate m
      (⟨⟨group, copy, .fetched⟩, now, .handled⟩, opening fleet copy)) := by
    intro m
    induction m with
    | zero => trivial
    | succ m ih => exact ⟨hst, ih⟩
  have hle := (hn _ (hrun (n + 1))).1
  rw [List.length_replicate] at hle
  omega

theorem exists_other {l : List String} (hnodup : l.Nodup) (hlength : 1 < l.length) (x : String) :
    ∃ y ∈ l, y ≠ x := by
  match l, hlength with
  | first :: second :: rest, _ =>
    by_cases hfirst : first = x
    · refine ⟨second, by simp, fun hsecond => ?_⟩
      rw [List.nodup_cons] at hnodup
      exact hnodup.1 (by simp [hfirst, hsecond])
    · exact ⟨first, by simp, hfirst⟩

/-- Another group fails at the retry that one has scheduled and at the message, to the end of
its schedule each time. -/
theorem exists_second_letter (htopic : copy.topic = .main) (hdecodes : Decodes fleet copy)
    {other : String} (hgroup : group ∈ fleet.groups) (hother : other ∈ fleet.groups)
    (hne : other ≠ group) (hroom : copy.attempt < maxAttempts (fleet.schedule group)) :
    ∃ tr, Run (Step fleet) (opening fleet copy) tr ∧
      deadLettersOf (lastState (opening fleet copy) tr) other = 2 := by
  have hfirst : (⟨group, copy, .fetched⟩ : Delivery) ∈ (opening fleet copy).deliveries :=
    mem_published.mpr ⟨hgroup, rfl, rfl⟩
  obtain ⟨tr, hr, hprocessed, ⟨hle, -⟩ | ⟨-, retry, hretry, hletters, hperm⟩⟩ :=
    fails hfirst (hdecodes group hgroup) rfl
  · omega
  obtain ⟨s, hs⟩ : ∃ s, s = lastState (opening fleet copy) tr := ⟨_, rfl⟩
  rw [← hs] at hprocessed hletters hperm
  have hretried : ⟨other, retry, .fetched⟩ ∈ s.deliveries :=
    hperm.mem_iff.mpr (List.mem_append_right _ (mem_published.mpr ⟨hother, rfl, rfl⟩))
  obtain ⟨tr', hr', hprocessed', hdead', hkept⟩ := exhausts hother _ s retry rfl
    (hretry.decodes hdecodes) hretried (by rw [hprocessed]; rfl)
  have hmessage : ⟨other, copy, .fetched⟩ ∈ (lastState s tr').deliveries := by
    apply hkept
    apply (List.mem_erase_of_ne ?_).mpr
    · refine hperm.mem_iff.mpr (List.mem_append_left _ ((List.mem_erase_of_ne ?_).mpr ?_))
      · exact fun heq => hne (congrArg Delivery.group heq)
      · exact mem_published.mpr ⟨hother, rfl, rfl⟩
    · intro heq
      have hcopy : copy = retry := congrArg Delivery.copy heq
      have htopics := hretry.topic
      rw [← hcopy, htopic] at htopics
      cases htopics
  obtain ⟨tr'', hr'', -, hdead'', -⟩ := exhausts hother _ (lastState s tr') copy rfl hdecodes
    hmessage (by rw [hprocessed', hprocessed]; rfl)
  refine ⟨tr ++ (tr' ++ tr''), hr.append ?_, ?_⟩
  · rw [← hs]
    exact hr'.append hr''
  · rw [lastState_append, ← hs, lastState_append, hdead'', hdead', deadLettersOf, hletters]
    rfl

/-- The groups are sound in every run exactly when the message decodes everywhere and is not
disturbed; and in a run where no group is handed what another has scheduled they always are. -/
theorem groups_sound_iff (fleet : Fleet) (htopic : copy.topic = .main) :
    ((∀ s tr, Published fleet copy s → Run (Step fleet) s tr → Always (Sound fleet) s tr) ↔
      Decodes fleet copy ∧ Undisturbed fleet copy) ∧
    ∀ s tr, Decodes fleet copy → Published fleet copy s → Run (Step fleet) s tr →
      EveryStep (Confined fleet) s tr → Always (Sound fleet) s tr := by
  refine ⟨⟨fun hsound => ?_, fun ⟨hdecodes, hundisturbed⟩ s tr h hr =>
    always_undisturbed h hdecodes hundisturbed hr⟩, fun s tr hdecodes h hr hconfined =>
    always_sound h hdecodes hr hconfined⟩
  have hopening : Published fleet copy _ := opening_published htopic
  have hdecodes : Decodes fleet copy := by
    intro group hgroup
    rw [Option.isSome_iff_ne_none]
    intro hnone
    exact not_rests hgroup hnone (hsound _ [] hopening trivial).rests
  refine ⟨hdecodes, ?_⟩
  by_contra hdisturbed
  obtain ⟨hmany, hroom⟩ := not_or.mp hdisturbed
  obtain ⟨group, hgroup, hleft⟩ : ∃ group ∈ fleet.groups,
      copy.attempt < maxAttempts (fleet.schedule group) := by
    by_contra hnone
    refine hroom fun group hgroup => Nat.le_of_not_lt fun hlt => hnone ⟨group, hgroup, hlt⟩
  obtain ⟨other, hother, hne⟩ := exists_other fleet.distinct (Nat.lt_of_not_le hmany) group
  obtain ⟨tr, hr, htwo⟩ := exists_second_letter htopic hdecodes hgroup hother hne hleft
  have hone := (hsound _ tr hopening hr).last.deadLetters other hother
  omega

section Samples

private def readsAny (_ : String) (envelope : SerializedEnvelope) : Option Envelope :=
  if envelope.data = [] then none else some ⟨"message"⟩

private def alone : Fleet :=
  ⟨"orders.order.placed.v1", ["billing"], by simp, readsAny, fun _ => defaultRetrySchedule⟩

private def pair : Fleet :=
  ⟨"orders.order.placed.v1", ["billing", "search"], by simp, readsAny,
    fun _ => defaultRetrySchedule⟩

private def message (value : Option Bytes) : Copy := ⟨.main, some "order", value, .empty⟩

/-- A group alone in its topic. -/
theorem groups_sound_iff_alone :
    (Decodes alone (message (some [123])) ∧ Undisturbed alone (message (some [123]))) ∧
      ∀ s tr, Published alone (message (some [123])) s → Run (Step alone) s tr →
        Always (Sound alone) s tr := by
  have halone : Decodes alone (message (some [123])) ∧ Undisturbed alone (message (some [123])) :=
    ⟨by decide +kernel, .inl (by decide)⟩
  exact ⟨halone, (groups_sound_iff alone rfl).1.mpr halone⟩

/-- With two groups that fail, one of them dead-letters the message twice; and a record without
a value is never left alone. -/
theorem groups_sound_fails :
    (¬ ∀ s tr, Published pair (message (some [123])) s → Run (Step pair) s tr →
      Always (Sound pair) s tr) ∧
    ¬ ∀ s tr, Published pair (message none) s → Run (Step pair) s tr →
      Always (Sound pair) s tr := by
  constructor
  · intro h
    have hdecodes : Decodes pair (message (some [123])) := by decide +kernel
    obtain ⟨tr, hr, htwo⟩ := exists_second_letter rfl hdecodes
      (show "billing" ∈ pair.groups by decide) (show "search" ∈ pair.groups by decide)
      (by decide) (by decide +kernel)
    have hone := (h _ tr (opening_published rfl) hr).last.deadLetters "search" (by decide)
    omega
  · intro h
    exact not_rests (show "billing" ∈ pair.groups by decide) (by decide +kernel)
      (h _ [] (opening_published rfl) trivial).rests

end Samples

end Kafka
