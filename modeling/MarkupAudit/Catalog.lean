import MarkupAudit.Catalog.Order
import MarkupAudit.Config.Basic
import MarkupAudit.Evaluation
import MarkupAudit.Guideline.All
import MarkupAudit.Json.Value
import MarkupAudit.Level
import MarkupAudit.Log
import MarkupAudit.Text.Names

/-!
Catalogues of rules. A catalogue is used only if it has rules, all of them are complete, and no two
have the same id; otherwise the first flaw is reported. The rules to use are the known ones, or
those of a catalogue that is given, without the disabled ones.
-/

namespace MarkupAudit

/-- What is given as a rule of a catalogue. -/
inductive CatalogEntry where
  | rule (r : Rule)
  /-- Something else. -/
  | other (v : Json.Value)

/-- A flaw of a catalogue. -/
inductive CatalogError where
  | empty
  | notRule (v : Json.Value)
  | badId (id : String)
  | duplicateId (id : String)
  | unknownLevel (id level : String)
  | noPattern (id : String)
  | badCondition (id : String)
  | badRepair (id : String)

/-- What is said of a flaw. -/
def CatalogError.message : CatalogError → String
  | .empty => "Rule catalog is empty"
  | .notRule v => "Catalog entry is not a Rule: " ++ v.shown
  | .badId id => "Rule id must look like R<number>: " ++ Text.quoted id
  | .duplicateId id => "Duplicate rule id: " ++ id
  | .unknownLevel id level => id ++ ": unknown level " ++ Text.quoted level
  | .noPattern id => id ++ ": pattern must be a compiled regular expression"
  | .badCondition id => id ++ ": predicate is not callable"
  | .badRepair id => id ++ ": fix is not callable"

/-- Why there are no rules to use. -/
inductive ResolveError where
  | catalog (e : CatalogError)
  | config (e : ConfigError)
  /-- Rules are to be left out, and something that is not a rule has no id to tell by. -/
  | notRule

namespace Catalog

/-- Whether a repair is one that can be asked to mend, or there is none. -/
def isUsable : Option Repair → Bool
  | some .notCallable => false
  | _ => true

/-- The first flaw of a rule, of which the ids before it are `seen`. -/
def flaw? (seen : List String) (r : Rule) : Option CatalogError :=
  if !isRuleId r.id then some (.badId r.id)
  else if seen.contains r.id then some (.duplicateId r.id)
  else if (Level.named? r.level).isNone then some (.unknownLevel r.id r.level)
  else if r.pattern.isNone then some (.noPattern r.id)
  else if r.applies.isNone then some (.badCondition r.id)
  else if !isUsable r.repair then some (.badRepair r.id)
  else none

/-- The rules, if no entry has a flaw given the ids `seen` before it. -/
def checkFrom (seen : List String) : List CatalogEntry → Except CatalogError (List Rule)
  | [] => .ok []
  | .other v :: _ => .error (.notRule v)
  | .rule r :: entries =>
    match flaw? seen r with
    | some e => .error e
    | none =>
      match checkFrom (r.id :: seen) entries with
      | .ok rules => .ok (r :: rules)
      | .error e => .error e

/-- The rules of a catalogue without flaws. -/
def validate (entries : List CatalogEntry) : Except CatalogError (List Rule) :=
  if entries.isEmpty then .error .empty else checkFrom [] entries

/-- The ids in a list of disabled rules: trimmed, in upper case, without blank ones and without
repetition. -/
def disabledIds (disabled : List String) : List String :=
  let ids := disabled.map fun s => Text.upperString (Text.trimString s)
  Text.distinct (ids.filter fun id => !id.isEmpty)

/-- The known rules, which make a catalogue like any other. -/
def known : Except CatalogError (List Rule) :=
  validate (Guideline.rules.map .rule)

/-- The disabled ids that none of the rules has. -/
def unknownIds (rules : List Rule) (disabled : List String) : List String :=
  (disabledIds disabled).filter fun id => !(rules.map (·.id)).contains id

/-- The known rules without the disabled ones. -/
def load (disabled : List String) : Except ResolveError (List Rule) :=
  match known with
  | .error e => .error (.catalog e)
  | .ok rules =>
    let unknown := unknownIds rules disabled
    if !unknown.isEmpty then .error (.config (.unknownRules (Text.sortNames unknown)))
    else
      let kept := rules.filter fun r => !(disabledIds disabled).contains r.id
      match validate (kept.map .rule) with
      | .ok rules => .ok rules
      | .error e => .error (.catalog e)

/-- What the log says when known rules are disabled. -/
def loadLog (disabled : List String) : List LogRecord :=
  match known with
  | .error _ => []
  | .ok rules =>
    let ids := disabledIds disabled
    if ids.isEmpty || !(unknownIds rules disabled).isEmpty then []
    else [{ severity := .info, source := "semantic_checker.catalog",
            message := "Disabled rules: " ++ ", ".intercalate (Text.sortNames ids) }]

/-- The rules among the entries, if all of them are rules. -/
def rules? : List CatalogEntry → Option (List Rule)
  | [] => some []
  | .rule r :: entries => (rules? entries).map (r :: ·)
  | .other _ :: _ => none

/-- The rules to use: the known ones, or those of the catalogue, without the disabled ones. -/
def resolve (disabled : List String) : Option (List CatalogEntry) → Except ResolveError (List Rule)
  | none => load disabled
  | some entries =>
    match rules? entries with
    | none => .error .notRule
    | some rules =>
      match validate ((rules.filter fun r => !disabled.contains r.id).map .rule) with
      | .ok rules => .ok rules
      | .error e => .error (.catalog e)

/-- What the log says when the rules to use are found. -/
def resolveLog (disabled : List String) : Option (List CatalogEntry) → List LogRecord
  | none => loadLog disabled
  | some _ => []

/-- The rules by id. Of several rules with one id the first gives the place and the last is
found. -/
def index (rules : List Rule) : List (String × Rule) :=
  (Text.distinct (rules.map (·.id))).filterMap fun id =>
    (rules.reverse.find? fun r => r.id == id).map fun r => (id, r)

end Catalog

/-- Why entries cannot be evaluated. -/
inductive EvaluationError where
  | lengthsDiffer
  /-- Something that is not a rule has no id to be listed by. -/
  | notRule
deriving Repr, DecidableEq

/-- What is said when entries cannot be evaluated; of entries that are not rules, nothing. -/
def EvaluationError.message : EvaluationError → String
  | .lengthsDiffer => "Preprocessed text must have the same length as the snapshot text"
  | .notRule => ""

/-- The evaluation of the entries of a catalogue, which must all be rules, on a prepared text, which
must be as long as the document. -/
def Evaluation.ofEntries? (prepared : Text) (s : Snapshot) (entries : List CatalogEntry) :
    Except EvaluationError Evaluation :=
  if prepared.length ≠ s.text.length then .error .lengthsDiffer
  else match Catalog.rules? entries with
    | none => .error .notRule
    | some rules => .ok (Evaluation.ofPrepared prepared s rules)

/-- What users are told of a rule. -/
def Rule.describe (r : Rule) : Json.Value :=
  .object
    [("id", .string r.id), ("tag", .string r.tag), ("level", .string r.level),
     ("criterion", .string r.criterion), ("message", .string r.message),
     ("recommendation", .string r.recommendation), ("fixable", .bool r.fixable),
     ("implemented", .bool r.implemented)]

end MarkupAudit
