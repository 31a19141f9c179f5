import KeepPeek.Lib.Except
import KeepPeek.Lib.Text

/-! Validation of layout documents, `peek_layouts.rs`, with the overflow checks of the release
build. `parseUuid` is the text of the identifier that a viewer's text parses to. Fields that no
check reads are left out. -/
namespace KeepPeek.PeekLayouts

open Lib

inductive Failure
  | invalid (message : String)
  | panicked
deriving DecidableEq

abbrev Checked := Except Failure

def require (passes : Bool) (message : String) : Checked Unit :=
  if passes then .ok () else .error (.invalid message)

/-- The sum of two `u32`. -/
def add (left right : UInt32) : Checked Nat :=
  if left.toNat + right.toNat < 2 ^ 32 then .ok (left.toNat + right.toNat) else .error .panicked

structure LayoutTile where
  cameraId : Text
  column : UInt32
  row : UInt32
  columnSpan : UInt32
  rowSpan : UInt32

namespace LayoutTile

def isInBounds (tile : LayoutTile) : Checked Bool :=
  if 1 ≤ tile.column ∧ 1 ≤ tile.row ∧ 1 ≤ tile.columnSpan ∧ 1 ≤ tile.rowSpan then do
    let right ← add tile.column tile.columnSpan
    if right ≤ 12 + 1 then do
      let bottom ← add tile.row tile.rowSpan
      return bottom ≤ 12 + 1
    else return false
  else return false

def overlaps (tile other : LayoutTile) : Checked Bool := do
  let otherRight ← add other.column other.columnSpan
  if tile.column.toNat < otherRight then do
    let right ← add tile.column tile.columnSpan
    if right > other.column.toNat then do
      let otherBottom ← add other.row other.rowSpan
      if tile.row.toNat < otherBottom then do
        let bottom ← add tile.row tile.rowSpan
        return bottom > other.row.toNat
      else return false
    else return false
  else return false

end LayoutTile

structure LayoutAudience where
  everyone : Bool
  credentialIds : List Text

structure DisplaySettings where
  version : UInt32
  streamLimit : UInt32
  gapPx : UInt32
  cornerRadiusPx : UInt32

structure Layout where
  id : Text
  name : Text
  isPrivate : Bool
  ownerId : Text
  audience : LayoutAudience
  display : Option DisplaySettings
  tiles : List LayoutTile

structure LayoutRegistry where
  schemaVersion : UInt32
  activeLayoutId : Text
  layouts : List Layout

structure StoredRegistry where
  schemaVersion : UInt32
  revision : UInt64
  sharedLayouts : List Layout
  users : List (Text × Text × List Layout)

section

variable (parseUuid : Text → Option Text) (cameraIds : List Text) (principalId : Text)

def LayoutAudience.validate (audience : LayoutAudience) : Checked Unit := do
  require (audience.credentialIds.length ≤ 128 ∧ ¬(audience.everyone ∧ audience.credentialIds ≠ []))
    "dashboard audience is invalid"
  let _ ← audience.credentialIds.foldlM (fun identities credentialId => do
    match parseUuid credentialId with
    | none => require false "dashboard viewer identity is invalid"
    | some parsed =>
      require (parsed = credentialId ∧ credentialId ∉ identities)
        "dashboard viewer identities must be canonical and unique"
    return identities ++ [credentialId]) []
  return ()

def DisplaySettings.validate (display : DisplaySettings) : Checked Unit := do
  require (display.version = 1) "dashboard display version is unsupported"
  require (1 ≤ display.streamLimit ∧ display.streamLimit ≤ 12) "dashboard stream limit is invalid"
  require (display.gapPx ≤ 24 ∧ display.cornerRadiusPx ≤ 24)
    "dashboard spacing or corner radius is invalid"

/-- The checks of a tile before its bounds. -/
def comesTo (placed : List LayoutTile) (tile : LayoutTile) : Checked Unit := do
  require (tile.cameraId ∈ cameraIds) "layout contains an unknown camera"
  require (tile.cameraId ∉ placed.map (·.cameraId)) "layout contains a duplicate camera"

def placeTile (placed : List LayoutTile) (tile : LayoutTile) : Checked (List LayoutTile) := do
  comesTo cameraIds placed tile
  require (← tile.isInBounds) "layout tile is outside the grid"
  require (!(← placed.anyM tile.overlaps)) "layout tiles must not overlap"
  return placed ++ [tile]

/-- The checks of a layout before its tiles. -/
def Layout.opens (ids : List Text) (layout : Layout) : Checked Unit := do
  require (layout.id.trim ≠ [] ∧ layout.id.length ≤ 128) "layout ID is invalid"
  require (layout.id ∉ ids) "layout IDs must be unique"
  require (layout.name.trim ≠ [] ∧ layout.name.length ≤ 80) "layout name is invalid"
  require (layout.isPrivate → layout.ownerId = principalId) "private layout owner is invalid"
  layout.audience.validate parseUuid
  (layout.display.map DisplaySettings.validate).getD (.ok ())
  require (layout.tiles.length ≤ 64) "layout has too many tiles"

def Layout.validate (ids : List Text) (layout : Layout) : Checked (List Text) := do
  layout.opens parseUuid principalId ids
  let _ ← layout.tiles.foldlM (placeTile cameraIds) []
  return ids ++ [layout.id]

def LayoutRegistry.opens (registry : LayoutRegistry) : Checked Unit := do
  require (registry.schemaVersion = 1) "layout registry schema version is unsupported"
  require (registry.layouts ≠ [] ∧ registry.layouts.length ≤ 32) "layout registry size is invalid"

def LayoutRegistry.validate (registry : LayoutRegistry) : Checked Unit := do
  registry.opens
  let ids ← registry.layouts.foldlM (Layout.validate parseUuid cameraIds principalId) []
  require (registry.activeLayoutId ∈ ids) "active layout does not exist"

end

/-- What is put by a client, or stored in the configuration or a backup. -/
inductive Document
  | put (principalId : Text) (allowed : List Text) (candidate : LayoutRegistry)
  | stored (cameraIds : List Text) (registry : StoredRegistry)

/-- A registry with the principal and the cameras it is checked for. -/
structure View where
  principalId : Text
  cameraIds : List Text
  registry : LayoutRegistry

def sharedOwnerId : Text := "server".toList

namespace Document

def opens : Document → Checked Unit
  | .put _ _ _ => .ok ()
  | .stored _ registry => do
    require (registry.schemaVersion = 1 ∧ registry.revision ≠ 0) "stored layout registry is invalid"
    require (registry.sharedLayouts ≠ [] ∧
      registry.sharedLayouts.all fun layout => !layout.isPrivate && layout.ownerId = sharedOwnerId)
      "stored shared layouts are invalid"

/-- The registries that are checked, in their order: the shared one and that of each user. -/
def views : Document → List View
  | .put principalId allowed candidate => [⟨principalId, allowed, candidate⟩]
  | .stored cameraIds registry =>
    let view (principalId activeLayoutId : Text) (layouts : List Layout) : View :=
      ⟨principalId, (layouts.flatMap (·.tiles)).map (·.cameraId) ++ cameraIds,
        ⟨1, activeLayoutId, layouts⟩⟩
    let shared := registry.sharedLayouts
    view sharedOwnerId ((shared.head?.map (·.id)).getD []) shared ::
      registry.users.map fun (principalId, activeLayoutId, layouts) =>
        view principalId activeLayoutId (shared ++ layouts)

def checkView (parseUuid : Text → Option Text) (_ : Unit) (view : View) : Checked Unit :=
  view.registry.validate parseUuid view.cameraIds view.principalId

def validate (parseUuid : Text → Option Text) (document : Document) : Checked Unit := do
  document.opens
  document.views.foldlM (checkView parseUuid) ()

end Document

namespace LayoutTile

def Inside (tile : LayoutTile) : Prop :=
  (1 ≤ tile.column ∧ 1 ≤ tile.row ∧ 1 ≤ tile.columnSpan ∧ 1 ≤ tile.rowSpan) ∧
    tile.column.toNat + tile.columnSpan.toNat ≤ 12 + 1 ∧
    tile.row.toNat + tile.rowSpan.toNat ≤ 12 + 1

def Covers (tile : LayoutTile) (column row : Nat) : Prop :=
  tile.column.toNat ≤ column ∧ column < tile.column.toNat + tile.columnSpan.toNat ∧
    tile.row.toNat ≤ row ∧ row < tile.row.toNat + tile.rowSpan.toNat

def Apart (tile other : LayoutTile) : Prop :=
  ∀ column row, ¬(tile.Covers column row ∧ other.Covers column row)

/-- The sums that the bounds check comes to are no overflow. -/
def Fits (tile : LayoutTile) : Prop :=
  (1 ≤ tile.column ∧ 1 ≤ tile.row ∧ 1 ≤ tile.columnSpan ∧ 1 ≤ tile.rowSpan) →
    tile.column.toNat + tile.columnSpan.toNat < 2 ^ 32 ∧
      (tile.column.toNat + tile.columnSpan.toNat ≤ 12 + 1 →
        tile.row.toNat + tile.rowSpan.toNat < 2 ^ 32)

end LayoutTile

/-- Tiles inside the grid that cover no cell twice and show no camera twice. -/
def Placed (tiles : List LayoutTile) : Prop :=
  (∀ tile ∈ tiles, tile.Inside) ∧ tiles.Pairwise (LayoutTile.Apart · ·) ∧
    (tiles.map (·.cameraId)).Nodup

def LayoutRegistry.Exact (registry : LayoutRegistry) : Prop :=
  (∀ layout ∈ registry.layouts, Placed layout.tiles) ∧ (registry.layouts.map (·.id)).Nodup ∧
    registry.activeLayoutId ∈ registry.layouts.map (·.id)

/-! A tile is reached if all checks before its bounds pass. -/

def View.Reaches (parseUuid : Text → Option Text) (view : View) (tile : LayoutTile) : Prop :=
  view.registry.opens = .ok () ∧ ∃ earlier layout later ids,
    view.registry.layouts = earlier ++ layout :: later ∧
    earlier.foldlM (Layout.validate parseUuid view.cameraIds view.principalId) [] = .ok ids ∧
    layout.opens parseUuid view.principalId ids = .ok () ∧ ∃ before after placed,
      layout.tiles = before ++ tile :: after ∧
      before.foldlM (placeTile view.cameraIds) [] = .ok placed ∧
      comesTo view.cameraIds placed tile = .ok ()

def Document.Reaches (parseUuid : Text → Option Text) (document : Document) (tile : LayoutTile) :
    Prop :=
  document.opens = .ok () ∧ ∃ earlier view later, document.views = earlier ++ view :: later ∧
    earlier.foldlM (checkView parseUuid) () = .ok () ∧ view.Reaches parseUuid tile

section

variable {parseUuid : Text → Option Text} {cameraIds : List Text} {principalId : Text}
  {tile other : LayoutTile} {placed : List LayoutTile}

theorem avoids_require (passes : Bool) (message : String) :
    Avoids Failure.panicked (require passes message) := by
  unfold require
  split <;> nofun

@[simp] theorem require_eq_ok {passes : Bool} {message : String} {value : Unit} :
    require passes message = .ok value ↔ passes = true := by
  cases passes <;> simp [require]

namespace LayoutTile

theorem isInBounds_avoids : Avoids .panicked tile.isInBounds ↔ tile.Fits := by
  unfold isInBounds add Fits Avoids
  by_cases fits : tile.column.toNat + tile.columnSpan.toNat < 2 ^ 32 <;>
    by_cases fits' : tile.row.toNat + tile.rowSpan.toNat < 2 ^ 32 <;>
    simp only [fits, fits', if_true, if_false, bind, Except.bind, pure, Except.pure] <;> grind

theorem isInBounds_eq_true (inside : tile.isInBounds = .ok true) : tile.Inside := by
  unfold isInBounds add at inside
  unfold Inside
  by_cases fits : tile.column.toNat + tile.columnSpan.toNat < 2 ^ 32 <;>
    by_cases fits' : tile.row.toNat + tile.rowSpan.toNat < 2 ^ 32 <;>
    simp only [fits, fits', if_true, if_false, bind, Except.bind, pure, Except.pure] at inside <;>
    grind

/-- Tiles inside the grid are compared without an overflow. -/
theorem Inside.overlaps (inside : tile.Inside) (inside' : other.Inside) :
    ∃ found, tile.overlaps other = .ok found ∧ (found = false → tile.Apart other) := by
  obtain ⟨-, right, bottom⟩ := inside
  obtain ⟨-, right', bottom'⟩ := inside'
  have sum (left right : UInt32) (small : left.toNat + right.toNat ≤ 12 + 1) :
      add left right = .ok (left.toNat + right.toNat) := if_pos (by omega)
  unfold LayoutTile.overlaps
  rw [sum _ _ right, sum _ _ right', sum _ _ bottom, sum _ _ bottom']
  simp only [bind, Except.bind, pure, Except.pure, Apart, Covers]
  split_ifs <;> refine ⟨_, rfl, ?_⟩ <;> intro apart column row <;> simp at apart <;> omega

theorem Inside.anyM_overlaps (inside : tile.Inside) (all : ∀ other ∈ placed, other.Inside) :
    ∃ found, placed.anyM tile.overlaps = .ok found ∧
      (found = false → ∀ other ∈ placed, tile.Apart other) := by
  induction placed with
  | nil => exact ⟨false, rfl, nofun⟩
  | cons first placed ih =>
    obtain ⟨found, rest, apart⟩ := ih fun other mem => all other (List.mem_cons_of_mem _ mem)
    obtain ⟨overlap, here, apart'⟩ := inside.overlaps (all first List.mem_cons_self)
    rw [List.anyM, here]
    cases overlap with
    | true => exact ⟨true, rfl, nofun⟩
    | false =>
      refine ⟨found, rest, fun none => List.forall_mem_cons.mpr ⟨apart' rfl, apart none⟩⟩

end LayoutTile

section

variable (all : ∀ other ∈ placed, other.Inside)
include all

theorem placeTile_avoids : Avoids .panicked (placeTile cameraIds placed tile) ↔
    (comesTo cameraIds placed tile = .ok () → tile.Fits) := by
  unfold placeTile
  have comes : Avoids .panicked (comesTo cameraIds placed tile) :=
    avoids_bind.mpr ⟨avoids_require _ _, fun _ _ => avoids_require _ _⟩
  rw [avoids_then, and_iff_right comes]
  refine imp_congr_right fun _ => ?_
  rw [avoids_bind, LayoutTile.isInBounds_avoids]
  refine and_iff_left fun inside bounds => avoids_bind.mpr ⟨avoids_require _ _, fun _ passes => ?_⟩
  rw [require_eq_ok.mp passes] at bounds
  -- Tiles are compared only after their bounds passed, so those sums are small.
  obtain ⟨found, overlaps, -⟩ := (LayoutTile.isInBounds_eq_true bounds).anyM_overlaps all
  rw [overlaps]
  exact avoids_then.mpr ⟨avoids_require _ _, fun _ => avoids_pure _⟩

theorem placeTile_eq_ok {after : List LayoutTile}
    (done : placeTile cameraIds placed tile = .ok after) :
    after = placed ++ [tile] ∧ tile.Inside ∧ tile.cameraId ∉ placed.map (·.cameraId) ∧
      ∀ other ∈ placed, tile.Apart other := by
  obtain ⟨_, comes, done⟩ := bind_eq_ok done
  obtain ⟨_, _, fresh⟩ := bind_eq_ok comes
  obtain ⟨inside, bounds, done⟩ := bind_eq_ok done
  obtain ⟨_, passes, done⟩ := bind_eq_ok done
  rw [require_eq_ok.mp passes] at bounds
  have inside := LayoutTile.isInBounds_eq_true bounds
  obtain ⟨found, overlaps, apart⟩ := inside.anyM_overlaps all
  obtain ⟨_, same, done⟩ := bind_eq_ok done
  cases overlaps.symm.trans same
  obtain ⟨_, none, done⟩ := bind_eq_ok done
  cases done
  simp only [require_eq_ok, decide_eq_true_eq, Bool.not_eq_true'] at fresh none
  exact ⟨rfl, inside, fresh, apart none⟩

end

theorem foldlM_placeTile {tiles after : List LayoutTile} (sound : Placed placed)
    (done : tiles.foldlM (placeTile cameraIds) placed = .ok after) :
    after = placed ++ tiles ∧ Placed after := by
  induction tiles generalizing placed with
  | nil =>
    cases done
    exact ⟨(List.append_nil _).symm, sound⟩
  | cons tile tiles ih =>
    obtain ⟨next, made, done⟩ := foldlM_cons_eq_ok done
    obtain ⟨rfl, inside, fresh, apart⟩ := placeTile_eq_ok sound.1 made
    obtain ⟨inside', apart', cameras⟩ := sound
    have grown : Placed (placed ++ [tile]) := by
      refine ⟨?_, List.pairwise_append.mpr ⟨apart', List.pairwise_singleton _ _, ?_⟩, ?_⟩
      · simpa [or_imp, forall_and] using ⟨inside', inside⟩
      · simp only [List.mem_singleton, forall_eq]
        exact fun other mem column row both => apart other mem column row both.symm
      · simp_all [List.nodup_append]
    simpa using ih grown done

theorem placed_nil : Placed [] := ⟨nofun, .nil, .nil⟩

theorem Layout.opens_avoids (ids : List Text) (layout : Layout) :
    Avoids .panicked (layout.opens parseUuid principalId ids) := by
  have audience : Avoids .panicked (layout.audience.validate parseUuid) := by
    refine avoids_then.mpr ⟨avoids_require _ _, fun _ =>
      avoids_bind.mpr ⟨avoids_foldlM.mpr ?_, fun _ _ => avoids_pure _⟩⟩
    rintro - credentialId - identities - -
    cases parseUuid credentialId <;>
      exact avoids_then.mpr ⟨avoids_require _ _, fun _ => avoids_pure _⟩
  have shown : Avoids .panicked ((layout.display.map DisplaySettings.validate).getD (.ok ())) := by
    cases layout.display with
    | none => exact avoids_pure ()
    | some display => simp [DisplaySettings.validate, avoids_then, avoids_require]
  simp [Layout.opens, avoids_then, avoids_require, audience, shown]

theorem Layout.validate_avoids {ids : List Text} {layout : Layout} :
    Avoids .panicked (layout.validate parseUuid cameraIds principalId ids) ↔
      (layout.opens parseUuid principalId ids = .ok () → ∀ before tile after placed,
        layout.tiles = before ++ tile :: after →
        before.foldlM (placeTile cameraIds) [] = .ok placed →
        comesTo cameraIds placed tile = .ok () → tile.Fits) := by
  unfold Layout.validate
  rw [avoids_then, and_iff_right (opens_avoids ids layout)]
  refine imp_congr_right fun _ => ?_
  rw [avoids_bind, avoids_foldlM]
  refine (and_iff_left fun _ _ => avoids_pure _).trans ?_
  refine forall_congr' fun before => forall_congr' fun tile => forall_congr' fun after =>
    forall_congr' fun placed => imp_congr_right fun _ => imp_congr_right fun done => ?_
  exact placeTile_avoids (foldlM_placeTile placed_nil done).2.1

theorem Layout.validate_eq_ok {ids after : List Text} {layout : Layout}
    (done : layout.validate parseUuid cameraIds principalId ids = .ok after) :
    after = ids ++ [layout.id] ∧ layout.id ∉ ids ∧ Placed layout.tiles := by
  obtain ⟨_, opens, done⟩ := bind_eq_ok done
  obtain ⟨_, _, opens⟩ := bind_eq_ok opens
  obtain ⟨_, fresh, _⟩ := bind_eq_ok opens
  obtain ⟨tiles, placed, done⟩ := bind_eq_ok done
  cases done
  obtain ⟨rfl, placed⟩ := foldlM_placeTile placed_nil placed
  simp only [require_eq_ok, decide_eq_true_eq] at fresh
  exact ⟨rfl, fresh, placed⟩

theorem foldlM_validate {layouts : List Layout} {ids after : List Text} (nodup : ids.Nodup)
    (done : layouts.foldlM (Layout.validate parseUuid cameraIds principalId) ids = .ok after) :
    after = ids ++ layouts.map (·.id) ∧ after.Nodup ∧ ∀ layout ∈ layouts, Placed layout.tiles := by
  induction layouts generalizing ids with
  | nil =>
    cases done
    exact ⟨(List.append_nil _).symm, nodup, nofun⟩
  | cons layout layouts ih =>
    obtain ⟨next, made, done⟩ := foldlM_cons_eq_ok done
    obtain ⟨rfl, fresh, placed⟩ := Layout.validate_eq_ok made
    obtain ⟨rfl, nodup, rest⟩ := ih (by grind [List.nodup_append]) done
    exact ⟨by simp, nodup, List.forall_mem_cons.mpr ⟨placed, rest⟩⟩

theorem View.check_avoids {state : Unit} {view : View} :
    Avoids .panicked (Document.checkView parseUuid state view) ↔
      ∀ tile, view.Reaches parseUuid tile → tile.Fits := by
  have opens : Avoids .panicked view.registry.opens := by
    simp [LayoutRegistry.opens, avoids_then, avoids_require]
  rw [Document.checkView, LayoutRegistry.validate, avoids_then, and_iff_right opens, avoids_bind,
    avoids_foldlM]
  simp only [Layout.validate_avoids, avoids_require, implies_true, and_true]
  grind [View.Reaches]

theorem View.exact {view : View} (done : Document.checkView parseUuid () view = .ok ()) :
    view.registry.Exact := by
  obtain ⟨_, _, done⟩ := bind_eq_ok done
  obtain ⟨ids, valid, active⟩ := bind_eq_ok done
  obtain ⟨rfl, nodup, placed⟩ := foldlM_validate .nil valid
  simp only [require_eq_ok, decide_eq_true_eq, List.nil_append] at active nodup
  exact ⟨placed, nodup, active⟩

/-- Validation does not panic and accepts only exact registries, precisely if the sums of every
tile it reaches are no overflow. -/
theorem layout_validation_exact_iff (parseUuid : Text → Option Text) (document : Document) :
    (document.validate parseUuid ≠ .error .panicked ∧ (document.validate parseUuid = .ok () →
      ∀ view ∈ document.views, view.registry.Exact)) ↔
    ∀ tile, document.Reaches parseUuid tile → tile.Fits := by
  have opens : Avoids .panicked document.opens := by
    cases document <;> simp [Document.opens, avoids_then, avoids_require]
    exact nofun
  have exact (done : document.validate parseUuid = .ok ()) :
      ∀ view ∈ document.views, view.registry.Exact := by
    intro view mem
    obtain ⟨_, _, done⟩ := bind_eq_ok done
    obtain ⟨earlier, later, split⟩ := List.append_of_mem mem
    rw [split, List.foldlM_append] at done
    obtain ⟨_, _, done⟩ := bind_eq_ok done
    exact View.exact (foldlM_cons_eq_ok done).choose_spec.1
  rw [and_iff_left exact, ← Avoids, Document.validate, avoids_then, and_iff_right opens,
    avoids_foldlM]
  simp only [View.check_avoids]
  grind [Document.Reaches]

end

theorem overflowing_tile_panics : (Document.put [] [['c']] ⟨1, ['a'], [⟨['a'], ['b'], false, [],
      ⟨true, []⟩, none, [⟨['c'], 4294967295, 1, 1, 1⟩]⟩]⟩).validate (fun _ => none) =
    .error .panicked := by
  decide +kernel

end KeepPeek.PeekLayouts
