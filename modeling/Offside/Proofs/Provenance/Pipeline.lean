import Offside.Page
import Offside.Proofs.Contract.Pipeline
import Offside.Proofs.Provenance.Sources
import Offside.Proofs.Provenance.Places

/-!
# The place of a failure

Whatever goes wrong between the text of a template and its page is shown with the lines around it.
The text is that of the file which the span names, and the span is on one of its lines, however the
node came there that is to blame.
-/

namespace Offside

open Computing

/-! ### Texts of files -/

namespace Text

theorem map_getD_of_mapM_id {α : Type} (default : α) :
    ∀ {pieces : List (Option α)} {values : List α},
      pieces.mapM id = some values → pieces.map (·.getD default) = values
  | [], values, given => by simpa using given
  | none :: _, _, given => by simp at given
  | some value :: rest, values, given => by
      rw [List.mapM_cons] at given
      cases others : rest.mapM id with
      | none => simp [others] at given
      | some found =>
          obtain rfl : value :: found = values := by simpa [others] using given
          rw [List.map_cons, map_getD_of_mapM_id default others]
          rfl

/-- Where no part is invalid there is none to replace. -/
theorem decodeLossy_of_decode? {bytes : List UInt8} {text : String}
    (valid : decode? bytes = some text) : decodeLossy bytes = text := by
  rcases Option.map_eq_some_iff.mp valid with ⟨characters, found, rfl⟩
  rw [decodeLossy, map_getD_of_mapM_id replacement found]

end Text

theorem exists_read_of_readText {read : Reader} {path source : String}
    (readable : readText read path = .ok source) :
    ∃ bytes, read path = .ok bytes ∧ source = Text.decodeLossy bytes := by
  unfold readText at readable
  split at readable
  · cases readable
  · next bytes found =>
      split at readable
      · next text valid =>
          cases readable
          exact ⟨bytes, found, (Text.decodeLossy_of_decode? valid).symm⟩
      · cases readable

/-! ### Texts of failures -/

section

variable {failure : Failure} {file : Option String} {text : String}

/-- A failure that comes without a text, on a line of a file, may be given the text of this file. -/
theorem Failure.pointsInto_attach (within : failure.span.Within file text)
    (bare : failure.source = none) (plain : failure.shown text = text) :
    (failure.attach text).PointsInto file text := by
  have sameSpan : (failure.attach text).span = failure.span := by cases failure <;> rfl
  have sameShown : (failure.attach text).shown text = failure.shown text := by cases failure <;> rfl
  have given : (failure.attach text).source = (failure.source <|> some text) := by
    cases failure <;> rfl
  refine ⟨sameSpan ▸ within, ?_⟩
  rw [given, bare, sameShown, plain]
  rfl

/-- The failure lies on a line of a file, and comes with the text of this file. -/
def Failure.PointsIntoFile (read : Reader) (failure : Failure) : Prop :=
  ∃ path bytes, read path = .ok bytes ∧ failure.PointsInto (some path) (Text.decodeLossy bytes)

theorem Reader.admits_pointsIntoFile (read : Reader) : read.Admits (Failure.PointsIntoFile read) :=
  fun path bytes _ found points => ⟨path, bytes, found, points⟩

/-- With the sources of a document, a failure at a span of the document is shown with its file. -/
theorem Sources.Closed.pointsIntoFile_attach {base : Option String} {read : Reader}
    {sources : Sources} (closed : sources.Closed base read) (shows : sources.Shows failure.span)
    (bare : failure.source = none) (plain : ∀ text, failure.shown text = text) :
    (sources.attach failure).PointsIntoFile read := by
  rcases shows with ⟨path, text, found, within⟩
  rcases closed path (Option.isSome_of_eq_some found) with ⟨bytes, covers⟩
  obtain rfl := Option.some.inj (found.symm.trans covers.text)
  have attached : sources.attach failure = failure.attach (Text.decodeLossy bytes) := by
    unfold attach
    rw [within.file, found]
  rw [attached]
  exact ⟨path, bytes, covers.reads, failure.pointsInto_attach within bare (plain _)⟩

end

/-! ### The stages in turn -/

section

variable (options : PageOptions) {read : Reader} {path : String} {bytes : List UInt8}

theorem satisfies_loadedDocument_delivered (reads : read path = .ok bytes) :
    Satisfies (loadedDocument options read (some path) (Text.decodeLossy bytes))
      (fun loaded => ∃ document : Document, document.IsOf path bytes ∧
        Node.DeliveredAll options.baseDirectory read document.nodes loaded.nodes)
      (Failure.PointsIntoFile read) := by
  refine .bind ((satisfies_ofSource_isOf path bytes).mono (fun _ => id)
    fun failure => read.admits_pointsIntoFile path bytes failure reads) ?_
  intro document isOf
  have owned : Node.Every (Node.Placed (Origin.Owns (Failure.PointsIntoFile read)
      ⟨some path, some (Text.decodeLossy bytes)⟩)) document.nodes :=
    fun node member => (isOf.within node member).mono fun _ =>
      read.admits_pointsIntoFile.owns reads
  exact (satisfies_load_delivered read.admits_pointsIntoFile isOf.freshAll owned).mono
    (fun loaded delivered => ⟨document, isOf, delivered.2⟩) fun _ => id

/-- The nodes of a linked document lie on lines of the texts that come with it. -/
theorem satisfies_compileWithSources_shows (reads : read path = .ok bytes) :
    Satisfies (compileWithSources options read (some path) (Text.decodeLossy bytes))
      (fun linked => linked.2.Closed options.baseDirectory read ∧
        Node.Every (Node.Placed linked.2.Shows) linked.1.nodes)
      (Failure.PointsIntoFile read) := by
  rw [compileWithSources_eq]
  refine .bind (satisfies_loadedDocument_delivered options reads) ?_
  rintro loaded ⟨document, isOf, delivered⟩
  have closed := (Sources.closed_ofDocument reads isOf delivered).1
  have shows := Sources.every_shows_ofDocument reads isOf delivered
  refine .bind (.adaptExcept
    (Node.joins_placed.satisfies_link Node.Movable.dissolves shows) fun fault stands => ?_) ?_
  · exact closed.pointsIntoFile_attach stands.span stands.source fun _ => rfl
  · exact fun linked placed => .pure ⟨closed, placed⟩

theorem satisfies_renderText_pointsIntoFile (reads : read path = .ok bytes) :
    Satisfies (renderText options read (some path) (Text.decodeLossy bytes)) (fun _ => True)
      (Failure.PointsIntoFile read) := by
  refine .bind (satisfies_compileWithSources_shows options reads) ?_
  rintro ⟨linked, sources⟩ ⟨closed, placed⟩
  refine .bind (.adaptExcept (Node.filters_placed.satisfies_apply options.filters placed)
    fun fault stands => ?_) fun filtered placedFiltered =>
      .adaptExcept (Node.renders_placed.satisfies_render placedFiltered options.rendering)
        fun fault stands => ?_
  · exact closed.pointsIntoFile_attach stands.span stands.source fun _ => rfl
  · exact closed.pointsIntoFile_attach stands.span stands.source fun _ => rfl

end

/-- If the template in a file can be read but fails to become a page, at whatever stage, then the
failure lies on a line of one of the files, and comes with the text of this file. -/
theorem renderFile_failure_pointsIntoFile (options : PageOptions) (read : Reader) {path : String}
    {source : String} {failure : Failure} {events after : Array Event}
    (readable : readText read path = .ok source)
    (failed : renderFile options read path events = .error failure after) :
    failure.PointsIntoFile read := by
  rcases exists_read_of_readText readable with ⟨bytes, reads, rfl⟩
  have points := satisfies_renderText_pointsIntoFile options reads events
  unfold renderFile at failed
  rw [readable] at failed
  dsimp only at failed
  rwa [failed] at points

/-- A page that extends another template, and puts a third one into it that calls a mixin which is
not declared. -/
def siteFiles : Reader
  | "site/page.pg" => .ok (Text.encode "extends layout.pg\nblock content\n  include parts/note.pg")
  | "site/layout.pg" => .ok (Text.encode "body\n  block content")
  | "site/parts/note.pg" => .ok (Text.encode "p note\n+missing")
  | _ => .error "no such file"

/-- The call, as it is shown. -/
def siteFailure : Failure :=
  .render ⟨.undefinedMixin "missing", ⟨some "site/parts/note.pg", 2, 1⟩, some "p note\n+missing"⟩

theorem renderFile_failure_pointsIntoFile_site :
    ∃ after, renderFile {} siteFiles "site/page.pg" #[] = .error siteFailure after ∧
      siteFailure.PointsIntoFile siteFiles := by
  have readable : readText siteFiles "site/page.pg" =
      .ok "extends layout.pg\nblock content\n  include parts/note.pg" := by
    decide +kernel
  have failed : outcome (renderFile {} siteFiles "site/page.pg" #[]) = .error siteFailure := by
    decide +kernel
  cases done : renderFile {} siteFiles "site/page.pg" #[] with
  | ok page after =>
      rw [done] at failed
      cases failed
  | error failure after =>
      rw [done] at failed
      cases failed
      exact ⟨after, rfl, renderFile_failure_pointsIntoFile {} siteFiles readable done⟩

end Offside
