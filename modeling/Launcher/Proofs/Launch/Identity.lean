import Launcher.Proofs.Launch.Layout

/-! Where the player's identity can get into a command line. What stands up to and including the
main class depends on the player by the demo flag alone, and so does the rest as long as no literal
that is included for the game names a placeholder of the player. -/
namespace Launcher

namespace Template

theorem fillAll_congr {table table' : Replacements} {pieces : List TemplatePiece}
    (same : ∀ name, .placeholder name ∈ pieces → table.get? name = table'.get? name) :
    fillAll table pieces = fillAll table' pieces := by
  induction pieces with
  | nil => rfl
  | cons piece rest ih =>
    have first : fill table piece = fill table' piece := by
      cases piece with
      | char c => rfl
      | placeholder name => simp only [fill, same name List.mem_cons_self]
    have others := ih fun name named => same name (List.mem_cons_of_mem _ named)
    rw [fillAll, fillAll, first, others]

/-- A text depends on the values of the placeholders that it names. -/
theorem substitute_congr {table table' : Replacements} {text : String}
    (same : ∀ name ∈ names text, table.get? name = table'.get? name) :
    substitute text table = substitute text table' := by
  have filled : fillAll table (pieces text.toList) = fillAll table' (pieces text.toList) := by
    apply fillAll_congr
    intro name named
    exact same name (List.mem_filterMap.mpr ⟨_, named, rfl⟩)
  rw [substitute, substitute, filled]

end Template

namespace Phase

/-- A literal of a tree that the rules on the way to it include. -/
inductive Includes (phase : Phase) : Argument → String → Prop
  | literal (text : String) : Includes phase (.literal text) text
  | conditional {rules : List Rule} {value : Argument} {text : String} :
      phase.includes rules = .ok true → Includes phase value text →
      Includes phase (.conditional rules value) text
  | item {items : List Argument} {a : Argument} {text : String} :
      a ∈ items → Includes phase a text → Includes phase (.list items) text

/-- Two phases in which the rules include the same and a placeholder means the same. -/
structure AgreesOn (p q : Phase) (name : String) : Prop where
  dropped : p.dropped.contains name = q.dropped.contains name
  value : p.replacements.get? name = q.replacements.get? name

variable {p q : Phase} {a : Argument}

theorem push_congr {text : String} (same : ∀ name ∈ Template.names text, p.AgreesOn q name)
    (state : Evaluation) : p.push text state = q.push text state := by
  have dropped : (Template.names text).any (p.dropped.contains ·) =
      (Template.names text).any (q.dropped.contains ·) := by
    rw [Bool.eq_iff_iff, List.any_eq_true, List.any_eq_true]
    exact exists_congr fun name => and_congr_right fun named => by rw [(same name named).dropped]
  have filled : Template.substitute text p.replacements =
      Template.substitute text q.replacements :=
    Template.substitute_congr fun name named => (same name named).value
  simp only [push, dropped, filled]

/-- Two evaluations of a tree have the same outcome if the phases include the same and agree on each
placeholder that an included literal names. -/
theorem evaluate_congr (included : ∀ rules, p.includes rules = q.includes rules) (a : Argument) :
    (∀ text, p.Includes a text → ∀ name ∈ Template.names text, p.AgreesOn q name) →
      ∀ state, p.evaluate a state = q.evaluate a state := by
  -- on trees, and on lists of trees as they are evaluated
  refine Argument.rec
    (motive_1 := fun a =>
      (∀ text, p.Includes a text → ∀ name ∈ Template.names text, p.AgreesOn q name) →
        ∀ state, p.evaluate a state = q.evaluate a state)
    (motive_2 := fun list =>
      (∀ text, p.Includes (.list list) text → ∀ name ∈ Template.names text, p.AgreesOn q name) →
        ∀ state, p.evaluateAll list state = q.evaluateAll list state) ?_ ?_ ?_ ?_ ?_ a
  · intro text same state
    exact push_congr (same text (.literal text)) state
  · intro rules value ih same state
    rw [evaluate, evaluate, ← included]
    rcases reached : p.includes rules with e | _ | _
    · rfl
    · rfl
    · exact ih (fun text inside => same text (.conditional reached inside)) state
  · intro list ih same state
    rw [evaluate, evaluate]
    exact ih same state
  · intro _ state
    rfl
  · intro first rest ihFirst ihRest same state
    have begun := ihFirst (fun text inside => same text (.item List.mem_cons_self inside)) state
    have later : ∀ text, p.Includes (.list rest) text →
        ∀ name ∈ Template.names text, p.AgreesOn q name := by
      intro text inside
      cases inside with
      | item member inside => exact same text (.item (List.mem_cons_of_mem _ member) inside)
    rw [evaluateAll, evaluateAll, ← begun]
    rcases p.evaluate first state with ⟨e | _, state'⟩
    · rfl
    · exact ihRest later state'

theorem arguments_congr (included : ∀ rules, p.includes rules = q.includes rules)
    (same : ∀ text, p.Includes a text → ∀ name ∈ Template.names text, p.AgreesOn q name) :
    p.arguments a = q.arguments a := by
  rw [arguments, arguments, evaluate_congr included a same]

/-- What is included is among the literals that an evaluation comes to. -/
theorem Reaches.mem_of_includes {texts : List String} (reached : p.Reaches a texts) {text : String}
    (inside : p.Includes a text) : text ∈ texts := by
  induction reached with
  | literal =>
    cases inside
    exact List.mem_singleton_self _
  | excluded excluded =>
    cases inside with
    | conditional included _ =>
      rw [excluded] at included
      cases included
  | included _ _ ih =>
    cases inside with
    | conditional _ inside => exact ih inside
  | nil =>
    cases inside with
    | item member _ => cases member
  | cons _ _ ihFirst ihRest =>
    cases inside with
    | item member inside =>
      rw [List.mem_append]
      rcases List.mem_cons.mp member with rfl | member
      · exact .inl (ihFirst inside)
      · exact .inr (ihRest (.item member inside))

end Phase

namespace LaunchSettings

/-- The same settings on behalf of a player. -/
def playedBy (s : LaunchSettings) (player : Session) : LaunchSettings :=
  { s with session := player }

end LaunchSettings

namespace CommandLine

/-- The placeholders whose values a player gives, or that are dropped for want of one. -/
def playerPlaceholders : List String :=
  ["user_type", "clientid", "auth_xuid", "auth_session", "auth_player_name", "auth_uuid",
    "auth_access_token"]

/-- What a command line begins with: everything up to and including the main class. -/
def opening (platform : Platform) (metadata : Members) (s : LaunchSettings) :
    Except LaunchError (List String) := do
  let mainClass ← ((metadata.getD "mainClass").asString (metadataPlace.member "mainClass")).mapError
    .malformed
  let (jvm, _) ← (parseArguments metadata).mapError .malformed
  let (jvmArgs, evaluation) := (jvmPhase platform s).arguments jvm
  let jvmArgs ← jvmArgs.mapError .evaluation
  let classpath := if evaluation.names.contains "classpath" then [] else ["-cp", s.classpath]
  return jvmArgs ++ jvmOptions s.jvmArgs s.initMem s.maxMem ++ [debugLoaderArgument] ++ classpath ++
    [mainClass]

/-- What follows the main class. -/
def closing (platform : Platform) (metadata : Members) (s : LaunchSettings) :
    Except LaunchError (List String) := do
  let (_, game) ← (parseArguments metadata).mapError .malformed
  let gameArgs ← ((gamePhase platform s).arguments game).1.mapError .evaluation
  return gameArgs ++ s.gameArgs

variable {platform : Platform} {metadata : Members} {s : LaunchSettings}

theorem build_eq (platform : Platform) (metadata : Members) (s : LaunchSettings) :
    build platform metadata s = (do
      return (← opening platform metadata s) ++ (← closing platform metadata s)) := by
  unfold build opening closing
  rcases (metadata.getD "mainClass").asString (metadataPlace.member "mainClass") with e | mainClass
  · rfl
  · rcases parseArguments metadata with e | ⟨jvm, game⟩
    · rfl
    · simp only [Except.mapError, bind, Except.bind, pure, Except.pure]
      rcases ((jvmPhase platform s).arguments jvm).1 with e | jvmArgs
      · rfl
      · rcases ((gamePhase platform s).arguments game).1 with e | gameArgs
        · rfl
        · simp

theorem opening_ok {front : List String} (opened : opening platform metadata s = .ok front) :
    ∃ mainClass, metadata.getD "mainClass" = .string mainClass ∧
      front.getLast? = some mainClass := by
  obtain ⟨mainClass, isText, opened⟩ := bind_ok opened
  obtain ⟨⟨jvm, game⟩, _, opened⟩ := bind_ok opened
  obtain ⟨values, _, opened⟩ := bind_ok opened
  cases opened
  exact ⟨mainClass, Json.asString_ok.mp (mapError_ok_iff.mp isText), List.getLast?_concat⟩

theorem features_congr {a b : Session} (same : a.demo = b.demo) : a.features = b.features := by
  rw [Session.features, Session.features, same]

theorem opening_congr {a b : Session} (same : a.demo = b.demo) :
    opening platform metadata (s.playedBy a) = opening platform metadata (s.playedBy b) := by
  have phases : jvmPhase platform (s.playedBy a) = jvmPhase platform (s.playedBy b) := by
    simp only [jvmPhase, LaunchSettings.playedBy, features_congr same]
    rfl
  unfold opening
  rw [phases]
  rfl

/-- Placeholders that are none of the player's mean the same for all players. -/
theorem gamePhase_agreesOn (a b : Session) {name : String} (other : name ∉ playerPlaceholders) :
    (gamePhase platform (s.playedBy a)).AgreesOn (gamePhase platform (s.playedBy b)) name := by
  simp only [playerPlaceholders, List.mem_cons, List.not_mem_nil, or_false, not_or] at other
  obtain ⟨userType, clientId, xuid, session, username, uuid, token⟩ := other
  constructor
  · cases a <;> cases b <;>
      simp [gamePhase, LaunchSettings.playedBy, Session.isOffline, identityPlaceholders, username,
        uuid, token]
  · cases a <;> cases b <;>
      simp [gamePhase, LaunchSettings.playedBy, LaunchSettings.gameReplacements, Replacements.get?,
        Session.isOffline, List.find?_cons, Ne.symm userType, Ne.symm clientId, Ne.symm xuid,
        Ne.symm session, Ne.symm username, Ne.symm uuid, Ne.symm token]

theorem closing_congr {a b : Session} (same : a.demo = b.demo)
    (free : ∀ jvm game, parseArguments metadata = .ok (jvm, game) →
      ∀ text, (gamePhase platform (s.playedBy a)).Includes game text →
        ∀ name ∈ playerPlaceholders, name ∉ Template.names text) :
    closing platform metadata (s.playedBy a) = closing platform metadata (s.playedBy b) := by
  have included (rules : List Rule) : (gamePhase platform (s.playedBy a)).includes rules =
      (gamePhase platform (s.playedBy b)).includes rules := by
    simp only [gamePhase, Phase.includes, LaunchSettings.playedBy, features_congr same]
  unfold closing
  rcases parsed : parseArguments metadata with e | ⟨jvm, game⟩
  · rfl
  · have ran : (gamePhase platform (s.playedBy a)).arguments game =
        (gamePhase platform (s.playedBy b)).arguments game := by
      refine Phase.arguments_congr included fun text inside name named => ?_
      exact gamePhase_agreesOn a b fun listed => free jvm game parsed text inside name listed named
    simp only [Except.mapError, bind, Except.bind, ran]
    rfl

/-- Of two players who both play the demo or both do not, nothing up to and including the main class
tells which one it is; and nothing else does, faults included, if no literal that is included for
the game names a placeholder of the player. -/
theorem build_identity {a b : Session} (same : a.demo = b.demo) (platform : Platform)
    (metadata : Members) (s : LaunchSettings) :
    opening platform metadata (s.playedBy a) = opening platform metadata (s.playedBy b) ∧
      (∀ player args, build platform metadata (s.playedBy player) = .ok args →
        ∃ front mainClass rest, metadata.getD "mainClass" = .string mainClass ∧
          opening platform metadata (s.playedBy player) = .ok (front ++ [mainClass]) ∧
          args = front ++ [mainClass] ++ rest) ∧
      ((∀ jvm game, parseArguments metadata = .ok (jvm, game) →
        ∀ text, (gamePhase platform (s.playedBy a)).Includes game text →
          ∀ name ∈ playerPlaceholders, name ∉ Template.names text) →
        build platform metadata (s.playedBy a) = build platform metadata (s.playedBy b)) := by
  refine ⟨opening_congr same, ?_, fun free => ?_⟩
  · intro player args built
    rw [build_eq] at built
    obtain ⟨front, opened, built⟩ := bind_ok built
    obtain ⟨rest, _, built⟩ := bind_ok built
    cases built
    obtain ⟨mainClass, isText, last⟩ := opening_ok opened
    obtain ⟨before, rfl⟩ := List.getLast?_eq_some_iff.mp last
    exact ⟨before, mainClass, rest, isText, opened, rfl⟩
  · rw [build_eq, build_eq, opening_congr same, closing_congr same free]

/-- Metadata that name a player in a literal that is left out, and ask for the demo. -/
def nameless : Members :=
  let literals (texts : List String) : Json := .list (texts.map .string)
  [("mainClass", .string "Main"), ("arguments", .object [
    ("game", .list [.string "$\x7bversion_name\x7d", .object [
      ("rules", .list [.object [("action", .string "disallow")]]),
      ("value", literals ["--name", "$\x7bauth_player_name\x7d"])], .object [
      ("rules", .list [.object [("action", .string "allow"),
        ("features", .object [("is_demo_user", .bool true)])]]),
      ("value", .string "--demo")]])])]

/-- Nobody sees from the command line that the first player is known and the second one is not. -/
theorem nameless_identity :
    let platform : Platform := ⟨some "linux", none, none, ""⟩
    let known : Session := .online "name" "token" "uuid" "client" "xuid" true
    let unknown : Session := .offline true
    known.demo = unknown.demo ∧
      (build platform nameless (ownArguments.playedBy known)).toBool ∧
      opening platform nameless (ownArguments.playedBy known) =
        opening platform nameless (ownArguments.playedBy unknown) ∧
      (∀ jvm game, parseArguments nameless = .ok (jvm, game) →
        ∀ text, (gamePhase platform (ownArguments.playedBy known)).Includes game text →
          ∀ name ∈ playerPlaceholders, name ∉ Template.names text) ∧
      build platform nameless (ownArguments.playedBy known) =
        build platform nameless (ownArguments.playedBy unknown) := by
  intro platform known unknown
  have same : known.demo = unknown.demo := by decide
  have ran : (parseArguments nameless).map (fun trees =>
      (gamePhase platform (ownArguments.playedBy known)).arguments trees.2) =
        .ok (.ok ["1", "--demo"], ⟨[some "1", some "--demo"], ["version_name"]⟩) := by
    decide +kernel
  have free : ∀ jvm game, parseArguments nameless = .ok (jvm, game) →
      ∀ text, (gamePhase platform (ownArguments.playedBy known)).Includes game text →
        ∀ name ∈ playerPlaceholders, name ∉ Template.names text := by
    intro jvm game parsed text inside name listed named
    rw [parsed] at ran
    obtain ⟨texts, items, reached, _, evaluation, _⟩ :=
      Phase.arguments_ok_iff.mp (Except.ok.inj ran)
    have names : ["version_name"] = texts.flatMap Template.names :=
      congrArg Evaluation.names evaluation
    have member : name ∈ ["version_name"] :=
      names ▸ List.mem_flatMap.mpr ⟨text, reached.mem_of_includes inside, named⟩
    rw [List.mem_singleton.mp member] at listed
    exact absurd listed (by decide)
  obtain ⟨opened, _, whole⟩ := build_identity same platform nameless ownArguments
  exact ⟨same, by decide +kernel, opened, free, whole free⟩

end CommandLine
end Launcher
