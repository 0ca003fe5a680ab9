import Lumo.CheckoutCompletion

/-! # One live order per checkout

What a call of `CompleteCheckout` comes to, and from it how many of the orders that were created
for a session are live after any sequence of calls. -/
namespace CheckoutCompletion

open SharedKernel Builtins Checkout CheckoutSessionMapper OrdersInventory Methods LabelledRuns

section Completion

variable {deps : CompleteCheckoutDeps} {idempotencyKey : String} {session : CheckoutSession}

/-- An order is created for an open session that records none yet. -/
structure Created (deps : CompleteCheckoutDeps) (idempotencyKey : String)
    (session : CheckoutSession) (order : PlacedOrder) : Prop where
  isOpen : session.state.isOpen = true
  unordered : session.orderRef = none
  created : deps.orderCreation ⟨order.draft, order.session.currency, idempotencyKey⟩ =
    .ok order.orderRef

/-- Everything a call can come to. -/
inductive Completion (deps : CompleteCheckoutDeps) (idempotencyKey : String)
    (session : CheckoutSession) : Outcome CompleteCheckoutOutput → Prop where
  | unplaced {answer : Except DomainError CompleteCheckoutOutput} {saved : Option Work}
      (kept : ∀ work, saved = some work →
        work.session.state = session.state ∧ work.session.orderRef = session.orderRef) :
    Completion deps idempotencyKey session ⟨answer, saved, none, none⟩
  | refused {reason : String} {order : PlacedOrder}
      (created : Created deps idempotencyKey session order) (undone : order.undone = true) :
    Completion deps idempotencyKey session ⟨.error (outOfStock reason), none, some order, none⟩
  | completed {output : CompleteCheckoutOutput} {work : Work} {order : PlacedOrder}
      (created : Created deps idempotencyKey session order) (undone : order.undone = false)
      (state : work.session.state = .completed)
      (orderRef : work.session.orderRef = some order.orderRef) :
    Completion deps idempotencyKey session ⟨.ok output, some work, some order, none⟩

theorem unsaved_completion (answer : Except DomainError CompleteCheckoutOutput) :
    Completion deps idempotencyKey session (.unsaved answer) :=
  .unplaced fun _ h => by cases h

theorem placeOrder_completion {work : Work} (hopen : session.state.isOpen = true)
    (hunordered : session.orderRef = none) (hk : Keeps session work.session) :
    Completion deps idempotencyKey session (placeOrder deps idempotencyKey work) := by
  rw [placeOrder]
  dsimp only
  split
  · exact unsaved_completion _
  · rename_i draft orderRef hcreated
    obtain ⟨drafted, _, hcreated⟩ := bind_eq_ok.mp hcreated
    obtain ⟨_, _, hcreated⟩ := bind_eq_ok.mp hcreated
    obtain ⟨ref, hcreation, hcreated⟩ := bind_eq_ok.mp hcreated
    cases hcreated
    split
    · exact .refused ⟨hopen, hunordered, hcreation⟩ rfl
    · have hcomplete : work.session.complete orderRef = .ok { work.session with
          state := .completed, orderRef := some orderRef } := by
        rw [CheckoutSession.complete, CheckoutSession.whenOpen, hk.state, if_pos hopen]
      rw [hcomplete]
      exact .completed ⟨hopen, hunordered, hcreation⟩ rfl rfl rfl

theorem completeCheckout_completion (deps : CompleteCheckoutDeps) (idempotencyKey : String)
    (session : CheckoutSession) :
    Completion deps idempotencyKey session (completeCheckout deps idempotencyKey session) := by
  rw [completeCheckout]
  split
  · exact unsaved_completion _
  · exact unsaved_completion _
  · rename_i hunordered
    split
    · exact unsaved_completion _
    · rename_i hopen
      rw [not_not] at hopen
      split
      · exact placeOrder_completion hopen hunordered (.refl session)
      · split
        · exact unsaved_completion _
        · rename_i work discountsChanged hrefreshed
          have hk := (refreshDiscountsAndTax_inProgress (inProgress_refl session) (fun _ => rfl)
            hrefreshed).1.keeps
          split
          · rw [reviewDiscounts]
            split
            · exact unsaved_completion _
            · rename_i after hafter
              obtain ⟨_, _, event, rfl⟩ := recalculateTotals_ok hafter
              refine .unplaced fun saved hsaved => ?_
              cases hsaved
              exact ⟨hk.state, hk.orderRef⟩
          · exact placeOrder_completion hopen hunordered hk

end Completion

section Order

variable {checkoutRef : String} {new : NewOrder} {request : OrderRequest} {order : Orders.Order}

theorem createFromCheckout_types (h : createFromCheckout checkoutRef new request = .ok order) :
    order.types = [.created] := by
  obtain ⟨_, _, h⟩ := bind_eq_ok.mp h
  obtain ⟨_, _, h⟩ := bind_eq_ok.mp h
  obtain ⟨items, _, h⟩ := bind_eq_ok.mp h
  obtain ⟨opened, hopened, h⟩ := bind_eq_ok.mp h
  have hempty := Orders.opened_history hopened
  simp only [Orders.Order.built, Orders.Order.record, run_bind, run_ofExcept] at h
  cases hid : UniqueEntityId.from new.eventId with
  | error e => simp [hid] at h
  | ok id =>
    simp only [hid, run_modify, Orders.Order.addDomainEvent] at h
    cases h
    simp [Orders.Order.types, hempty]

theorem createFromCheckout_live (h : createFromCheckout checkoutRef new request = .ok order)
    (id : String) : (⟨id, order⟩ : Placement).isCancelled = false := by
  have htypes : order.types = [] ++ [.created] := createFromCheckout_types h
  have hstatus := Orders.status_of_types htypes
  simp [Placement.isCancelled, hstatus]

/-- A new order can be cancelled. -/
theorem cancelled_created {orders : Orders.Config} (draw : ℕ)
    (hids : isBlank (orders.ids draw 0) = false)
    (h : createFromCheckout checkoutRef new request = .ok order) (id : String) :
    ∃ cancelled, cancelled? orders draw order = some cancelled ∧
      (⟨id, cancelled⟩ : Placement).isCancelled = true := by
  have htypes : order.types = [] ++ [.created] := createFromCheckout_types h
  have hstatus := Orders.status_of_types htypes
  have hcan : Orders.canTransition .created .cancelled = true := by decide
  have hid : UniqueEntityId.from (orders.ids draw 0) = .ok ⟨orders.ids draw 0, hids⟩ :=
    UniqueEntityId.from_of_notEmpty hids
  let event : Orders.OrderEvent := ⟨⟨orders.ids draw 0, hids⟩, .cancelled, orders.clock draw⟩
  let cancelled : Orders.Order :=
    { order with history := order.history ++ [event], domainEvents := [] }
  have hcancelled : cancelled.status = .ok .cancelled := by
    have hcancelledTypes : cancelled.types = order.types ++ [.cancelled] := by
      simp [Orders.Order.types, cancelled, event]
    exact Orders.status_of_types hcancelledTypes
  refine ⟨cancelled, ?_, ?_⟩
  · have hsaved : (Orders.Order.status { order with
        history := order.history ++ [event]
        domainEvents := order.domainEvents ++ [.orderTransitioned order.orderNumber
          order.customerRef .created .cancelled] }) = .ok .cancelled := hcancelled
    simp only [event] at hsaved
    simp [cancelled?, Orders.advance, Orders.saveAfter, Orders.Order.transition,
      Orders.Order.record, Orders.Order.addDomainEvent, hstatus, hcan, hid, hsaved, cancelled,
      event]
  · simp [Placement.isCancelled, hcancelled]

end Order

section Outcome

variable {config : Config} {room : Stockroom} {call : Call} {session : CheckoutSession}
  {placed : PlacedOrder} {order : Orders.Order}

/-- Everything a call can come to, with the answer of Orders lost or not. -/
inductive Ending (config : Config) (room : Stockroom) (call : Call) (session : CheckoutSession) :
    Outcome CompleteCheckoutOutput → Prop where
  | unplaced {answer : Except DomainError CompleteCheckoutOutput} {saved : Option Work}
      (kept : ∀ work, saved = some work →
        work.session.state = session.state ∧ work.session.orderRef = session.orderRef) :
    Ending config room call session ⟨answer, saved, none, none⟩
  | lost {error : DomainError} {placed : PlacedOrder}
      (created : Created (call.deps config room) call.idempotencyKey session placed)
      (lost : call.answerLost = some error) (undone : placed.undone = false) :
    Ending config room call session ⟨.error error, none, some placed, none⟩
  | refused {reason : String} {placed : PlacedOrder}
      (created : Created (call.deps config room) call.idempotencyKey session placed)
      (arrived : call.answerLost = none) (undone : placed.undone = true) :
    Ending config room call session ⟨.error (outOfStock reason), none, some placed, none⟩
  | completed {output : CompleteCheckoutOutput} {work : Work} {placed : PlacedOrder}
      (created : Created (call.deps config room) call.idempotencyKey session placed)
      (arrived : call.answerLost = none) (undone : placed.undone = false)
      (state : work.session.state = .completed)
      (orderRef : work.session.orderRef = some placed.orderRef) :
    Ending config room call session ⟨.ok output, some work, some placed, none⟩

variable (config room call session) in
theorem outcome_ending : Ending config room call session (call.outcome config room session) := by
  have hc := completeCheckout_completion (call.deps config room) call.idempotencyKey session
  simp only [Call.outcome]
  generalize completeCheckout (call.deps config room) call.idempotencyKey session = out at hc
  cases hlost : call.answerLost with
  | none =>
    cases hc with
    | unplaced kept => exact .unplaced kept
    | refused created undone => exact .refused created hlost undone
    | completed created undone state orderRef =>
      exact .completed created hlost undone state orderRef
  | some error =>
    cases hc with
    | unplaced kept => exact .unplaced kept
    | refused created undone | completed created undone state orderRef =>
      exact .lost ⟨created.isOpen, created.unordered, created.created⟩ hlost rfl

theorem Created.stored (h : Created (call.deps config room) call.idempotencyKey session placed) :
    ∃ new order, call.creation = .ok new ∧ new.id.value = placed.orderRef ∧
      call.created? config placed = some order ∧
      createFromCheckout config.checkoutSessionId new
        ⟨placed.draft, placed.session.currency, call.idempotencyKey⟩ = .ok order := by
  obtain ⟨new, hnew, hcreated⟩ := bind_eq_ok.mp h.created
  obtain ⟨order, horder, hid⟩ := bind_eq_ok.mp hcreated
  refine ⟨new, order, hnew, Except.ok.inj hid, ?_, horder⟩
  simp [Call.created?, hnew, horder, Except.toOption]

/-- What a call that has created an order leaves of it and of the stock. -/
structure Settled (config : Config) (call : Call) (placed : PlacedOrder)
    (left : Placement × Stockroom) : Prop where
  id : left.1.id = placed.orderRef
  cancelled : left.1.isCancelled =
    (call.answerLost.isNone && placed.undone && call.cancels)
  kept : Kept left.2.store
  unused : Unused config.ids left.2
  free : call.answerLost = none → placed.undone = true →
    call.release.Succeeds ∨ call.cancels = true ∧ call.cleanup.Succeeds →
    ∀ row ∈ left.2.store.table, holds placed.orderRef row = false

theorem releaseAttempt_frees {attempt : ReleaseAttempt} {lines : List OrderLine} {orderId : String}
    (hs : attempt.Succeeds) (h : Returnable config.ids orderId (productIds lines) room) :
    ∀ row ∈ (releaseOrderStock config.ids (attempt.releasing lines) orderId room).store.table,
      holds orderId row = false := by
  refine releaseOrderStock_frees h ?_ hs.smooth
  simp [ReleaseAttempt.releasing, orderAnswer, hs.read]

theorem settle_settled (hp : Proper config) (hkept : Kept room.store)
    (hunused : Unused config.ids room) (hnamed : isBlank placed.orderRef = false)
    (hfresh : ∀ row ∈ room.store.table, holds placed.orderRef row = false)
    {new : NewOrder} {request : OrderRequest}
    (hcreated : createFromCheckout config.checkoutSessionId new request = .ok order) :
    Settled config call placed (call.settle config room placed order) := by
  let lines := placed.draft.items.map orderLine
  have hlive := createFromCheckout_live hcreated placed.orderRef
  have hstart : Returnable config.ids placed.orderRef (productIds lines) room :=
    ⟨hkept, hunused, allRetrievable_of_none hfresh⟩
  have hreserved := hstart.requestReservation (call.shop lines) hp.injective hp.named hnamed
    (by
      intro found hfound line hline
      simp only [Call.shop, orderAnswer] at hfound
      split at hfound
      · cases hfound
        exact mem_productIds hline
      · cases hfound)
  have hreleased := releaseOrderStock_shrunk (call.release.releasing lines) hreserved
  have hcleaned :=
    releaseOrderStock_shrunk (call.cleanup.releasing lines) hreleased.returnable
  rw [Call.settle]
  cases hlost : call.answerLost with
  | some error =>
    refine ⟨rfl, ?_, hkept, hunused, fun hnone => ?_⟩
    · simp [hlost, hlive]
    · rw [hlost] at hnone
      cases hnone
  | none =>
    cases hundone : placed.undone with
    | false =>
      refine ⟨rfl, ?_, hreserved.kept, hreserved.unused, fun _ htrue => ?_⟩
      · simp [hundone, hlive]
      · rw [hundone] at htrue
        cases htrue
    | true =>
      cases hcancels : call.cancels with
      | false =>
        refine ⟨rfl, ?_, hreleased.returnable.kept, hreleased.returnable.unused, fun _ _ hone => ?_⟩
        · simp [hcancels, hlive]
        · rcases hone with hone | ⟨hcancel, _⟩
          · exact releaseAttempt_frees hone hreserved
          · rw [hcancels] at hcancel
            cases hcancel
      | true =>
        obtain ⟨cancelled, hcancelled, hgone⟩ := cancelled_created call.cancelDraw
          (hp.events _ _) hcreated placed.orderRef
        simp only [Option.isSome_none, Bool.false_eq_true, if_false, if_true, hcancelled]
        refine ⟨rfl, ?_, hcleaned.returnable.kept, hcleaned.returnable.unused, fun _ _ hone => ?_⟩
        · simp [hlost, hundone, hcancels, hgone]
        · rcases hone with hone | ⟨_, hone⟩
          · intro row hrow
            rw [Bool.eq_false_iff]
            intro hholds
            have hfree := releaseAttempt_frees hone hreserved row (hcleaned.fewer row hrow hholds)
            rw [hholds] at hfree
            cases hfree
          · exact releaseAttempt_frees hone hreleased.returnable

end Outcome

section Calls

variable {config : Config} {w : World} {call : Call} {session : CheckoutSession}
  {placed : PlacedOrder} {out : Outcome CompleteCheckoutOutput}

structure Coherent (config : Config) (w : World) : Prop where
  recorded : w.Recorded
  kept : Kept w.room.store
  unused : Unused config.ids w.room

/-- How many orders the session records. -/
def World.recordings (w : World) : ℕ := if w.row.orderRef.isSome then 1 else 0

variable (out) in
theorem placed_settled (hp : Proper config) (h : Coherent config w) (hf : Fresh w call)
    (hc : Created (call.deps config w.room) call.idempotencyKey session placed)
    (hout : out.placed = some placed) :
    ∃ left, call.placed? config w out = some left ∧ Settled config call placed left := by
  obtain ⟨new, order, hnew, hid, hstored, hcreated⟩ := hc.stored
  have hleft : call.placed? config w out = some (call.settle config w.room placed order) := by
    simp [Call.placed?, hout, hstored]
  refine ⟨_, hleft, settle_settled hp h.kept h.unused ?_ ?_ hcreated⟩
  · rw [← hid]
    exact new.id.notEmpty
  · rw [← hid]
    exact (hf new hnew).2

theorem live_place (w : World) (left : Placement × Stockroom) :
    (w.place (some left)).live = w.live ++ if left.1.isCancelled then [] else [left.1] := by
  simp only [World.place, World.live, List.filter_append]
  cases h : left.1.isCancelled <;> simp [h]

theorem live_place_length (w : World) (left : Placement × Stockroom) :
    (w.place (some left)).live.length = w.live.length + (!left.1.isCancelled).toNat := by
  rw [live_place, List.length_append]
  cases left.1.isCancelled <;> rfl

theorem recordings_place (w : World) (left : Placement × Stockroom) :
    (w.place (some left)).recordings = w.recordings := rfl

theorem Coherent.place {left : Placement × Stockroom} (h : Coherent config w)
    (hs : Settled config call placed left) : Coherent config (w.place (some left)) := by
  refine ⟨⟨h.recorded.completed, fun orderRef horder => ?_⟩, hs.kept, hs.unused⟩
  obtain ⟨p, hlive, hid⟩ := h.recorded.live orderRef horder
  rw [live_place]
  exact ⟨p, List.mem_append_left _ hlive, hid⟩

theorem Coherent.save {saved : CheckoutSession} (h : Coherent config w)
    (hstate : saved.state = w.row.state) (hordered : saved.orderRef = w.row.orderRef) :
    Coherent config { w with row := toRow saved } := by
  refine ⟨⟨?_, ?_⟩, h.kept, h.unused⟩
  · change saved.state = .completed ↔ saved.orderRef.isSome = true
    rw [hstate, hordered]
    exact h.recorded.completed
  · intro orderRef horder
    change saved.orderRef = some orderRef at horder
    rw [hordered] at horder
    exact h.recorded.live orderRef horder

theorem save_unsaved (hout : out.saved = none) : w.save call out = w := by
  rw [World.save, hout]
  cases call.committed <;> rfl

/-- What a call has made of the world. -/
def World.after (config : Config) (w : World) (call : Call)
    (out : Outcome CompleteCheckoutOutput) : World :=
  (w.save call out).place (call.placed? config w out)

theorem after_coherent (hp : Proper config) (h : Coherent config w) (hf : Fresh w call)
    (hordered : session.orderRef = w.row.orderRef) (hstate : session.state = w.row.state)
    (he : Ending config w.room call session out) :
    Coherent config (w.after config call out) ∧
      (w.after config call out).live.length + w.recordings =
        w.live.length + (w.after config call out).recordings + (call.leaves out).toNat := by
  rw [World.after]
  cases he with
  | @unplaced answer saved kept =>
    have hplaced : call.placed? config w ⟨answer, saved, none, none⟩ = none := rfl
    rw [hplaced]
    cases hcommitted : call.committed with
    | false =>
      simp only [World.save, hcommitted]
      exact ⟨h, rfl⟩
    | true =>
      cases saved with
      | none =>
        rw [save_unsaved rfl]
        exact ⟨h, rfl⟩
      | some work =>
        obtain ⟨hkept, hkeptOrder⟩ := kept work rfl
        simp only [World.save, hcommitted]
        refine ⟨h.save (hkept.trans hstate) (hkeptOrder.trans hordered), ?_⟩
        have hsame : (toRow work.session).orderRef = w.row.orderRef := hkeptOrder.trans hordered
        simp only [World.place, World.recordings, hsame]
        rfl
  | @lost error placed created lost undone =>
    obtain ⟨left, hleft, hs⟩ := placed_settled ⟨.error error, none, some placed, none⟩
      hp h hf created rfl
    rw [hleft, save_unsaved rfl]
    refine ⟨h.place hs, ?_⟩
    rw [live_place_length, recordings_place, hs.cancelled, lost]
    simp only [Call.leaves, lost, Option.any_some, Option.isNone_some, Option.isSome_some,
      Bool.false_and, Bool.true_or, Bool.not_false]
    omega
  | @refused reason placed created arrived undone =>
    obtain ⟨left, hleft, hs⟩ := placed_settled ⟨.error (outOfStock reason), none, some placed, none⟩
      hp h hf created rfl
    rw [hleft, save_unsaved rfl]
    refine ⟨h.place hs, ?_⟩
    rw [live_place_length, recordings_place, hs.cancelled, arrived, undone]
    simp only [Call.leaves, arrived, undone, Option.any_some, Option.isNone_none,
      Option.isSome_none, Bool.true_and, Bool.false_or, if_true]
    omega
  | @completed output work placed created arrived undone state orderRef =>
    obtain ⟨left, hleft, hs⟩ := placed_settled ⟨.ok output, some work, some placed, none⟩
      hp h hf created rfl
    rw [hleft]
    have hlive : left.1.isCancelled = false := by
      rw [hs.cancelled, undone, Bool.and_false, Bool.false_and]
    cases hcommitted : call.committed with
    | false =>
      simp only [World.save, hcommitted]
      refine ⟨h.place hs, ?_⟩
      rw [live_place_length, recordings_place, hlive]
      simp only [Call.leaves, arrived, undone, hcommitted, Option.any_some, Option.isSome_none,
        Bool.false_or, Bool.false_eq_true, if_false, Bool.not_false]
      omega
    | true =>
      simp only [World.save, hcommitted]
      refine ⟨⟨⟨?_, ?_⟩, hs.kept, hs.unused⟩, ?_⟩
      · change work.session.state = .completed ↔ work.session.orderRef.isSome = true
        rw [state, orderRef]
        exact iff_of_true rfl rfl
      · intro ref href
        change work.session.orderRef = some ref at href
        rw [orderRef, Option.some.injEq] at href
        rw [live_place, hlive]
        exact ⟨left.1, List.mem_append_right _ List.mem_cons_self, hs.id.trans href⟩
      · have hnone : w.row.orderRef = none := hordered.symm.trans created.unordered
        have hsome : (toRow work.session).orderRef = some placed.orderRef := orderRef
        rw [live_place_length, hlive]
        simp [Call.leaves, arrived, undone, hcommitted, World.recordings, World.place, World.live,
          hnone, hsome]

theorem next_coherent (hp : Proper config) (h : Coherent config w) (hf : Fresh w call) :
    Coherent config (next config w call) ∧
      (next config w call).live.length + w.recordings = w.live.length +
        (next config w call).recordings + (leavesBehind config w call).toNat := by
  rw [next, leavesBehind]
  cases hload : toDomain config.text w.row with
  | error e => exact ⟨h, rfl⟩
  | ok session =>
    obtain ⟨hstate, hordered, _⟩ := toDomain_keeps hload
    exact after_coherent hp h hf hordered hstate (outcome_ending config w.room call session)

theorem next_undone (hp : Proper config) (h : Coherent config w) (hf : Fresh w call) :
    UndoneIfPossible config w (.complete call) := by
  intro orderRef hrefused
  rw [refused?] at hrefused
  rw [next]
  cases hload : toDomain config.text w.row with
  | error e =>
    rw [hload] at hrefused
    cases hrefused
  | ok session =>
    have he := outcome_ending config w.room call session
    simp only [hload] at hrefused ⊢
    generalize call.outcome config w.room session = out at he hrefused ⊢
    cases he with
    | unplaced => cases hrefused
    | lost created lost undone | completed created arrived undone => simp [undone] at hrefused
    | @refused reason placed created arrived undone =>
      obtain ⟨left, hleft, hs⟩ := placed_settled ⟨.error (outOfStock reason), none, some placed, none⟩
        hp h hf created rfl
      rw [hleft, save_unsaved rfl]
      simp only [Option.filter_some, undone, if_true, Option.map_some, Option.some.injEq]
        at hrefused
      subst hrefused
      refine ⟨fun hcancels => ⟨left.1, ?_, hs.id, ?_⟩, fun hone => hs.free arrived undone hone⟩
      · exact List.mem_append_right _ List.mem_cons_self
      · rw [hs.cancelled, arrived, undone, hcancels]
        rfl

end Calls

section Runs

variable {config : Config} {w : World}

theorem New.coherent (h : New config w) : Coherent config w := by
  refine ⟨⟨?_, ?_⟩, h.kept, h.unused⟩
  · rw [h.unordered]
    exact iff_of_false h.incomplete (by simp)
  · intro orderRef horder
    rw [h.unordered] at horder
    cases horder

theorem coherent_step (hp : Proper config) (w : World) (event : Event) (w' : World)
    (h : Coherent config w) (hs : Step config w event w') : Coherent config w' := by
  cases event with
  | complete call =>
    obtain ⟨hfresh, rfl⟩ := hs
    exact (next_coherent hp h hfresh).1
  | moved room =>
    obtain ⟨hkept, hunused, rfl⟩ := hs
    exact ⟨⟨h.recorded.completed, h.recorded.live⟩, hkept, hunused⟩

theorem run_live (hp : Proper config) {tr : List (Event × World)} (h : Coherent config w)
    (hr : Run (Step config) w tr) :
    (lastState w tr).live.length + w.recordings =
      w.live.length + (lastState w tr).recordings + leftBehind config w tr := by
  induction tr generalizing w with
  | nil => rfl
  | cons entry rest ih =>
    obtain ⟨event, w'⟩ := entry
    obtain ⟨hs, hrest⟩ := hr
    have hlast := ih (coherent_step hp w event w' h hs) hrest
    cases event with
    | complete call =>
      obtain ⟨hfresh, rfl⟩ := hs
      have hnext := (next_coherent hp h hfresh).2
      rw [lastState, leftBehind]
      omega
    | moved room =>
      obtain ⟨_, _, rfl⟩ := hs
      exact hlast

/-- Along any sequence of calls on a new session: the session is completed exactly when it records
an order, which is live; every other live order was left behind by a call; and what is refused is
undone as far as the call comes through with it. -/
theorem run_oneLiveOrder (hp : Proper config) {tr : List (Event × World)} (hn : New config w)
    (hr : Run (Step config) w tr) :
    Always World.Recorded w tr ∧
      (lastState w tr).live.length =
        (if (lastState w tr).row.orderRef.isSome then 1 else 0) + leftBehind config w tr ∧
      EveryStep (UndoneIfPossible config) w tr := by
  have hc := hn.coherent
  refine ⟨?_, ?_, ?_⟩
  · exact (always_of_invariant (coherent_step hp) hc hr).mono fun _ h => h.recorded
  · have hlive := run_live hp hc hr
    have hnone : w.recordings = 0 := by
      rw [World.recordings, hn.unordered]
      rfl
    have hempty : w.live.length = 0 := by
      rw [World.live, hn.placements]
      rfl
    rw [hnone, hempty, add_zero, zero_add] at hlive
    exact hlive
  · refine everyStep_of_taken (coherent_step hp) ?_ hc hr
    intro w event w' h hs
    cases event with
    | complete call => exact next_undone hp h hs.1
    | moved room => trivial

end Runs

/-! A shopper who completes twice: the first order was placed, but the session was not saved. -/

def sampleConfig : Config where
  text := ⟨toUpperCase, id, fun _ _ => 0⟩
  checkoutSessionId := "checkout-1"
  ids := Inventory.sampleIds
  orders := ⟨false, fun _ _ => "event", fun _ => 0⟩

theorem event_named : isBlank "event" = false := by decide

theorem sampleConfig_proper : Proper sampleConfig :=
  ⟨Inventory.sampleIds_injective, Inventory.sampleIds_named, fun _ _ => event_named⟩

def sampleHome : CheckoutAddressInput :=
  ⟨none, none, "1 Main Street", none, "Paris", "75001", "FR", none⟩

theorem sampleHome_valid : sampleHome.normalized = sampleHome ∧ sampleHome.issues = [] := by
  decide +kernel

theorem blend_named : isBlank "blend" = false := by decide

def readySession : CheckoutSession :=
  let session : CheckoutSession := { CheckoutSession.start "cart-1" (some "customer-1") "USD" with
    items := [⟨⟨"blend", blend_named⟩, ⟨2, Nat.two_pos⟩, 500, "USD",
      some ⟨"leaf", "BL-1", "Blend", none⟩⟩]
    billingAddress := some ⟨sampleHome, sampleHome_valid⟩
    shippingAddress := some ⟨sampleHome, sampleHome_valid⟩ }
  { session with totals := some (session.totalsWith 0 false) }

def readyWorld : World := ⟨toRow readySession, [], ⟨⟨[], []⟩, 0⟩⟩

def smoothRelease : ReleaseAttempt := ⟨none, ⟨fun _ => false, fun _ => false⟩⟩

def sampleCall (id : UniqueEntityId) (tracked : Bool) : Call where
  idempotencyKey := "key-1"
  inventoryValidation := none
  promotionValidation := none
  taxCalculation := none
  creation := .ok ⟨id, "1001", "customer-1", "event", 0⟩
  answerLost := none
  unreadOrder := none
  getProduct _ := .ok ⟨[⟨"leaf", tracked, .deny⟩]⟩
  warehouses := []
  release := smoothRelease
  cancels := true
  cancelDraw := 0
  cleanup := smoothRelease
  committed := true

theorem orderOne_named : isBlank "order-1" = false := by decide

theorem orderTwo_named : isBlank "order-2" = false := by decide

def firstCall (tracked : Bool) : Call := sampleCall ⟨"order-1", orderOne_named⟩ tracked

def secondCall : Call := sampleCall ⟨"order-2", orderTwo_named⟩ false

theorem readyWorld_new : New sampleConfig readyWorld := by
  refine ⟨by decide, rfl, rfl, ⟨.nil _, .nil⟩, ?_⟩
  intro draw _ row hrow
  cases hrow

instance (w : World) (call : Call) : Decidable (Fresh w call) :=
  match h : call.creation with
  | .error _ => isTrue (by rintro new hnew; rw [h] at hnew; cases hnew)
  | .ok new => decidable_of_iff ((∀ placement ∈ w.placements, placement.id ≠ new.id.value) ∧
      ∀ row ∈ w.room.store.table, holds new.id.value row = false) (by
    constructor
    · rintro hfresh other hother
      cases h.symm.trans hother
      exact hfresh
    · intro hfresh
      exact hfresh new h)

/-- The run of two calls. -/
def twoCalls (first second : Call) : List (Event × World) :=
  [(.complete first, next sampleConfig readyWorld first),
    (.complete second, next sampleConfig (next sampleConfig readyWorld first) second)]

/-- The first call finds no stock, the second places the order. -/
theorem run_oneLiveOrder_retried :
    (lastState readyWorld (twoCalls (firstCall true) secondCall)).live.length = 1 := by
  have hrun : Run (Step sampleConfig) readyWorld (twoCalls (firstCall true) secondCall) :=
    ⟨⟨by decide +kernel, rfl⟩, ⟨by decide +kernel, rfl⟩, trivial⟩
  rw [(run_oneLiveOrder sampleConfig_proper readyWorld_new hrun).2.1]
  decide +kernel

theorem oneLiveOrder_fails : ¬ ∀ (config : Config) (w : World) (tr : List (Event × World)),
    Proper config → New config w → Run (Step config) w tr → OneLiveOrder config w tr := by
  intro h
  let unsaved : Call := { firstCall false with committed := false }
  have hrun : Run (Step sampleConfig) readyWorld (twoCalls unsaved secondCall) :=
    ⟨⟨by decide +kernel, rfl⟩, ⟨by decide +kernel, rfl⟩, trivial⟩
  have hone := (h _ _ _ sampleConfig_proper readyWorld_new hrun).atMostOne.last
  exact absurd hone (by decide +kernel)

end CheckoutCompletion
