import Fragboard.Match.ScriptedWorld
import Fragboard.Proofs.Match.PlayerChanges
import Mathlib.Data.List.Chain

/-!
# Reports of scopes

A field of a message sets a player's field of view, and the end of a message
reports the scope if it is not as it was reported last.  Field and end are told
apart: the view may be set and never looked at, and the end looks at whatever was
set last.

What is noted of a player tells the views of the present connection and its
reports (`PlayerState.Sees`).  So the reports of a connection alternate, and each
has the last view that was set (`Session.scopes_alternate`).
-/

namespace Fragboard.Match

/-- Whether a report about a player's scope says that it was raised. -/
def Event.raised? (player : Slot) : Event → Option Bool
  | .scope viewer raised _ => if viewer = player then some raised else none
  | _ => none

namespace PlayerState

/-- What is noted of a player tells the last of the views and the last of the
reports; before any report there is no scope. -/
structure Sees (state : PlayerState) (views : List Int32)
    (reports : List Bool) : Prop where
  view : state.fieldOfView = views.getLast?.getD 0
  zoomed : state.zoomed = reports.getLast?.getD false
  alternates : (false :: reports).IsChain (· ≠ ·)
  unseen : views = [] → reports = []

variable {state : PlayerState} {views : List Int32} {reports : List Bool}

theorem Sees.of_fresh (view : state.fieldOfView = 0)
    (zoomed : state.zoomed = false) : state.Sees [] [] where
  view := view
  zoomed := zoomed
  alternates := .singleton false
  unseen := fun _ => rfl

theorem Sees.sameNotes {after : PlayerState} (sees : state.Sees views reports)
    (same : state.SameNotes after) : after.Sees views reports := by
  obtain ⟨kept, rfl⟩ := same
  exact ⟨sees.view, sees.zoomed, sees.alternates, sees.unseen⟩

theorem Sees.look (sees : state.Sees views reports) (view : Int32) :
    (state.apply (.look view)).Sees (views ++ [view]) reports where
  view := by
    rw [List.getLast?_concat]
    rfl
  zoomed := sees.zoomed
  alternates := sees.alternates
  unseen := fun none => by simp at none

/-- What the end of a message reports of a player's scope. -/
def zoomReport? (state : PlayerState) : Option Bool :=
  let zoomed := !Session.isPlainView state.fieldOfView
  if zoomed = state.zoomed then none else some zoomed

theorem zoomReport?_eq_some_iff {raised : Bool} :
    state.zoomReport? = some raised ↔
      state.zoomed = !raised ∧
      (raised = true ↔ state.fieldOfView ≠ 0 ∧ state.fieldOfView ≠ 90) := by
  have plain : Session.isPlainView state.fieldOfView = false ↔
      state.fieldOfView ≠ 0 ∧ state.fieldOfView ≠ 90 := by
    simp [Session.isPlainView]
  rw [zoomReport?, ← plain]
  cases Session.isPlainView state.fieldOfView <;> cases raised <;>
    cases state.zoomed <;> simp

theorem apply_zoom_zoomed (state : PlayerState) :
    (state.apply .zoom).zoomed = state.zoomReport?.getD state.zoomed := by
  rw [zoomReport?]
  split
  · next same => exact same
  · rfl

theorem Sees.zoom (sees : state.Sees views reports) :
    (state.apply .zoom).Sees views
      (reports ++ state.zoomReport?.toList) := by
  have zoomed := state.apply_zoom_zoomed
  cases reported : state.zoomReport? with
  | none =>
      rw [reported] at zoomed
      rw [Option.toList_none, List.append_nil]
      exact ⟨sees.view, zoomed.trans sees.zoomed, sees.alternates, sees.unseen⟩
  | some raised =>
      obtain ⟨opposite, inView⟩ := zoomReport?_eq_some_iff.mp reported
      rw [reported] at zoomed
      refine ⟨sees.view, ?_, ?_, ?_⟩
      · rw [zoomed, Option.toList_some, List.getLast?_concat]
        rfl
      · apply sees.alternates.append (.singleton _)
        intro last before next now
        obtain rfl := Option.some.inj now
        rw [List.getLast?_cons, ← sees.zoomed, opposite] at before
        obtain rfl := Option.some.inj before
        simp
      · intro unseen
        have view : state.fieldOfView = 0 := by
          rw [sees.view, unseen]
          rfl
        rw [sees.zoomed, sees.unseen unseen] at opposite
        have upward : raised = true := by simpa using opposite.symm
        exact absurd view (inView.mp upward).1

theorem Sees.apply (sees : state.Sees views reports) {change : Change}
    (stays : change.turnsOver = false) (unzoomed : change ≠ .zoom)
    (unseen : ∀ view, change ≠ .look view) :
    (state.apply change).Sees views reports := by
  have kept {after : PlayerState} (view : after.fieldOfView = state.fieldOfView)
      (zoomed : after.zoomed = state.zoomed) : after.Sees views reports :=
    ⟨view.trans sees.view, zoomed.trans sees.zoomed, sees.alternates,
      sees.unseen⟩
  cases change with
  | connect name unique => contradiction
  | leave => contradiction
  | look view => exact absurd rfl (unseen view)
  | zoom => exact absurd rfl unzoomed
  | note near =>
      simp only [PlayerState.apply]
      split
      · exact kept rfl rfl
      · split
        · exact sees
        · exact kept rfl rfl
  | toggle =>
      simp only [PlayerState.apply]
      split
      · exact sees
      · exact kept rfl rfl
  | _ => exact kept rfl rfl

end PlayerState

namespace Session

variable {World : Type} [GameWorld World]

/-- The field of view that a call sets for a player. -/
def viewSet? (session : Session World) (player : Slot) :
    Call World → Option Int32
  | .messageField value =>
    session.decoder.field.1.bind fun call =>
      if call.meaning = .fieldOfView ∧
          session.liveSubject call.subject = some player then
        value.asInt
      else
        none
  | _ => none

/-- The views that some calls set for a player, in order. -/
def views (session : Session World) (player : Slot) :
    List (Call World) → List Int32
  | [] => []
  | call :: rest =>
    (session.viewSet? player call).toList ++
      (session.perform call).views player rest

/-- What some calls report of a player's scope, in order. -/
def scopes (session : Session World) (player : Slot)
    (calls : List (Call World)) : List Bool :=
  (session.stream calls).filterMap (Event.raised? player)

section Calls

variable {session : Session World} {player : Slot} {call : Call World}

theorem viewSet?_eq_some_iff {view : Int32} :
    session.viewSet? player call = some view ↔
      session.Makes call player (.look view) := by
  constructor
  · intro set
    cases call with
    | messageField value =>
        obtain ⟨⟨meaning, subject⟩, decoded, taken⟩ :=
          Option.bind_eq_some_iff.mp set
        obtain ⟨⟨rfl, live⟩, viewed⟩ :=
          Option.ite_none_right_eq_some.mp taken
        exact ⟨subject, value, ⟨rfl, decoded⟩, live, viewed⟩
    | _ => contradiction
  · rintro ⟨subject, value, ⟨rfl, decoded⟩, live, viewed⟩
    rw [viewSet?, decoded, Option.bind_some, if_pos ⟨rfl, live⟩, viewed]

theorem viewSet?_eq_none (unseen : ∀ view,
    ¬session.Makes call player (.look view)) :
    session.viewSet? player call = none := by
  refine Option.eq_none_iff_forall_ne_some.mpr ?_
  intro view set
  exact unseen view (viewSet?_eq_some_iff.mp set)

theorem sent_of_zoom (makes : session.Makes call player .zoom) :
    session.sent call =
      (session.player player).zoomReport?.toList.map fun raised =>
        .scope player raised (session.player player).fieldOfView := by
  obtain ⟨rfl, closing⟩ := makes
  simp only [Session.sent, closing, Option.elim_some, endEvents,
    PlayerState.zoomReport?]
  split
  · rfl
  · rfl

/-- The scope is reported at an end that looks at it, with the view that is
noted by then. -/
theorem zoom_of_sent {raised : Bool} {view : Int32}
    (sent : .scope player raised view ∈ session.sent call) :
    session.Makes call player .zoom ∧
    (session.player player).zoomReport? = some raised ∧
    (session.player player).fieldOfView = view := by
  obtain ⟨rfl, slot, closing⟩ := closing?_of_ending (origin?_of_sent sent)
  have makes : session.Makes .messageEnd slot .zoom := ⟨rfl, closing⟩
  rw [sent_of_zoom makes] at sent
  obtain ⟨reported, member, same⟩ := List.mem_map.mp sent
  obtain ⟨rfl, rfl, rfl⟩ := Event.scope.inj same
  exact ⟨makes, Option.mem_toList.mp member, rfl⟩

theorem reports_of_zoom (makes : session.Makes call player .zoom) :
    (session.sent call).filterMap (Event.raised? player) =
      (session.player player).zoomReport?.toList := by
  rw [sent_of_zoom makes, List.filterMap_map]
  cases (session.player player).zoomReport? with
  | none => rfl
  | some raised => simp [Event.raised?]

theorem reports_of_unzoomed (unzoomed : ¬session.Makes call player .zoom) :
    (session.sent call).filterMap (Event.raised? player) = [] := by
  refine List.filterMap_eq_nil_iff.mpr ?_
  intro event member
  cases event with
  | scope viewer raised view =>
      refine if_neg ?_
      rintro rfl
      exact unzoomed (zoom_of_sent member).1
  | _ => rfl

variable {views : List Int32} {reports : List Bool}

theorem sees_perform (sees : (session.player player).Sees views reports)
    (stays : call.turnsOver player = false) :
    ((session.perform call).player player).Sees
      (views ++ (session.viewSet? player call).toList)
      (reports ++ (session.sent call).filterMap (Event.raised? player)) := by
  rcases session.player_perform_cases call player with
    ⟨change, makes, same⟩ | ⟨unchanged, same⟩
  · have unturned : change.turnsOver = false := makes.turnsOver ▸ stays
    refine PlayerState.Sees.sameNotes ?_ same
    by_cases zooms : change = .zoom
    · obtain rfl := zooms
      rw [reports_of_zoom makes, viewSet?_eq_none
        fun view looks => PlayerState.Change.noConfusion (makes.unique looks)]
      simpa using sees.zoom
    · have silent := reports_of_unzoomed
        fun zoom => zooms (makes.unique zoom)
      rw [silent, List.append_nil]
      by_cases looks : ∃ view, change = .look view
      · obtain ⟨view, rfl⟩ := looks
        rw [viewSet?_eq_some_iff.mpr makes]
        exact sees.look view
      · have unseen (view : Int32) : change ≠ .look view :=
          fun same => looks ⟨view, same⟩
        rw [viewSet?_eq_none
          fun view look => unseen view (makes.unique look)]
        simpa using sees.apply unturned zooms unseen
  · rw [viewSet?_eq_none fun view => unchanged _,
      reports_of_unzoomed (unchanged _)]
    simpa using sees.sameNotes same

/-- While the slot is not turned over, views and reports add up. -/
theorem sees_run (sees : (session.player player).Sees views reports)
    {calls : List (Call World)}
    (stays : ∀ call ∈ calls, call.turnsOver player = false) :
    ((session.run calls).player player).Sees
      (views ++ session.views player calls)
      (reports ++ session.scopes player calls) := by
  induction calls generalizing session views reports with
  | nil =>
      rw [Session.views, scopes, stream, List.filterMap_nil, List.append_nil,
        List.append_nil]
      exact sees
  | cons call rest ih =>
      obtain ⟨first, later⟩ := List.forall_mem_cons.mp stays
      have added := ih (sees_perform sees first) later
      rw [List.append_assoc, List.append_assoc] at added
      rw [Session.views, scopes, stream, List.filterMap_append]
      exact added

end Calls

theorem scopes_concat (session : Session World) (player : Slot)
    (calls : List (Call World)) (call : Call World) :
    session.scopes player (calls ++ [call]) =
      session.scopes player calls ++
        ((session.run calls).sent call).filterMap (Event.raised? player) := by
  rw [scopes, stream_concat, List.filterMap_append]
  rfl

/-- Every report of a player's scope belongs to a connection of the player.  The
first one in the connection says that the scope was raised, and from then on each
says the opposite of the one before it.  The report has the view that was set
last for the player, and says that the scope is raised exactly if this view is
neither 0 nor 90. -/
theorem scopes_alternate (config : Config) (world : World)
    (points : PointTable) {calls : List (Call World)} {call : Call World}
    {player : Slot} {raised : Bool} {view : Int32}
    (sent : .scope player raised view ∈
      ((Session.new config world points).run calls).sent call) :
    let start := Session.new config world points
    ∃ connection : Connection start player calls,
      let seated := start.run (connection.before ++ [connection.call])
      let scopes := seated.scopes player (connection.between ++ [call])
      scopes.head? = some true ∧ scopes.IsChain (· ≠ ·) ∧
      scopes.getLast? = some raised ∧
      (seated.views player connection.between).getLast? = some view ∧
      (raised = true ↔ view ≠ 0 ∧ view ≠ 90) := by
  intro start
  obtain ⟨makes, reported, noted⟩ := zoom_of_sent sent
  obtain ⟨connection⟩ :=
    exists_connection config world points (makes.connected rfl)
  refine ⟨connection, ?_⟩
  intro seated scopes
  have fresh : (seated.player player).Sees [] [] := by
    obtain ⟨name, unique, blank⟩ := connection.player_seated
    rw [show seated.player player = _ from blank]
    exact .of_fresh rfl rfl
  have present : seated.run connection.between = start.run calls :=
    connection.run_between
  have sees : ((start.run calls).player player).Sees
      (seated.views player connection.between)
      (seated.scopes player connection.between) :=
    present ▸ sees_run fresh connection.unturned
  have grown : scopes =
      seated.scopes player connection.between ++ [raised] := by
    simp only [scopes, scopes_concat, present]
    rw [reports_of_zoom makes, reported, Option.toList_some]
  have zoomed := sees.zoom
  rw [reported, Option.toList_some, ← grown] at zoomed
  obtain ⟨first, chain⟩ := List.isChain_cons.mp zoomed.alternates
  refine ⟨?_, chain, ?_, ?_, ?_⟩
  · cases started : scopes.head? with
    | none => simp [grown] at started
    | some report =>
        have opposite : false ≠ report := first report started
        cases report with
        | false => contradiction
        | true => rfl
  · rw [grown, List.getLast?_concat]
  · have seen := sees.view
    cases last : (seated.views player connection.between).getLast? with
    | none =>
        have unseen := zoomed.unseen (List.getLast?_eq_none_iff.mp last)
        simp [grown] at unseen
    | some latest =>
        rw [last, noted] at seen
        exact congrArg some seen.symm
  · rw [← noted]
    exact (PlayerState.zoomReport?_eq_some_iff.mp reported).2

/-- The player on the first slot looks through a scope.  The same view is set
again, without a report. -/
theorem scope_lowered :
    let slot : Slot := { index := 0 }
    let look (view : Int32) : List (Call ScriptedWorld) :=
      [.messageBegin 72 (some { index := 1, generation := 0 }),
        .messageField (.int view)]
    let calls := [.register "SetFOV" 72,
        .changeWorld fun world => (world.join slot 1).2,
        .connect slot "ann" "id:ann"] ++
      look 20 ++ [.messageEnd] ++ look 20 ++ [.messageEnd] ++ look 90
    let start := Session.new {} ScriptedWorld.empty PointTable.blank
    .scope slot false 90 ∈ (start.run calls).sent .messageEnd ∧
    start.scopes slot (calls ++ [.messageEnd]) = [true, false] ∧
    ∃ connection : Connection start slot calls,
      let seated := start.run (connection.before ++ [connection.call])
      let scopes := seated.scopes slot (connection.between ++ [.messageEnd])
      scopes.head? = some true ∧ scopes.getLast? = some false ∧
      (seated.views slot connection.between).getLast? = some 90 := by
  intro slot look calls start
  have sent : .scope slot false 90 ∈ (start.run calls).sent .messageEnd := by
    decide +kernel
  obtain ⟨connection, first, _, last, view, _⟩ :=
    scopes_alternate {} ScriptedWorld.empty PointTable.blank sent
  exact ⟨sent, by decide +kernel, connection, first, last, view⟩

end Session

end Fragboard.Match
