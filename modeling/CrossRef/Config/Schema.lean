import CrossRef.Config.Basic
import CrossRef.Json.Writer

/-!
The JSON schema of the settings file.
-/
namespace CrossRef
namespace Config

/-- A field of a section, in schema words. -/
def schemaField (name description : String) (rest : List (String × Json)) : String × Json :=
  (name, .ofMembers (("description", .text description) :: rest))

def ofType (name : String) : String × Json := ("type", .text name)

def textDefault (value : String) : List (String × Json) :=
  [ofType "string", ("default", .text value)]

def noDefault : List (String × Json) := [("type", .ofTexts ["string", "null"])]

def textsDefault : List (String × Json) :=
  [ofType "array", ("default", .array []), ("items", .ofMembers [ofType "string"])]

def globalSchema : Json :=
  .ofMembers
    [("description", .text "Global configuration options"), ofType "object",
      ("properties", .ofMembers
        [schemaField "assets" "Files or directories copied verbatim into the output directory"
            textsDefault,
          schemaField "chapters-dir" "Directory holding one `<id>.html` source per chapter"
            (textDefault default.chaptersDir),
          schemaField "disable"
            "Passes to skip (equation-numbers, equation-refs, text-refs, link-targets)"
            textsDefault,
          schemaField "manifest" "Path to the chapter manifest (JSON)"
            (textDefault default.manifest),
          schemaField "output-dir"
            "Build output directory; chapters are written to `<output-dir>/chapters/`"
            (textDefault default.outputDir),
          schemaField "report-dir"
            "Directory where debug reports are written; reports are skipped when unset" noDefault,
          schemaField "templates-dir"
            "Directory with `_header.html`, `_footer.html` and `_index.html` templates" noDefault])]

def policySchema (numbering : Index.Numbering) (description : String) : Json :=
  .ofMembers
    [("description", .text description), ofType "string", ("const", .text numbering.label)]

def numberingSchema : Json :=
  .ofMembers
    [("description", .text "Which display equations receive a number."),
      ("oneOf", .array
        [policySchema .allDisplay
            ("Number every display equation in document order; " ++
              "identifiers attach when present"),
          policySchema .identifiedOnly
            "Number only display equations whose owning identifier starts with `eq:`"])]

def equationsSchema : Json :=
  .ofMembers
    [ofType "object",
      ("properties", .ofMembers
        [schemaField "numbering" "Numbering policy for display equations"
          [("$ref", .text "#/$defs/EquationNumbering"),
            ("default", .text default.numbering.label)]])]

def linksSchema : Json :=
  .ofMembers
    [ofType "object",
      ("properties", .ofMembers
        [schemaField "equation-targets" "Also rewrite `#eq:` links that point into another chapter"
          [ofType "boolean", ("default", .bool default.equationTargets)]])]

/-- A section, by the name of its definition and the fields that it has without being given. -/
def schemaSection (name description definition : String) (fields : List (String × Json)) :
    String × Json :=
  schemaField name description
    [("$ref", .text ("#/$defs/" ++ definition)), ("default", .ofMembers fields)]

def schema : Json :=
  .ofMembers
    [("$schema", .text "https://json-schema.org/draft/2020-12/schema"),
      ("title", .text "Config"),
      ("description",
        .text ("chapterlink configuration for building cross-referenced " ++
          "multi-chapter HTML documents.")),
      ofType "object",
      ("properties", .ofMembers
        [schemaSection "equations" "Equation numbering options" "EquationsConfig"
            [("numbering", .text default.numbering.label)],
          schemaSection "global" "Global configuration options" "GlobalConfig"
            [("assets", .ofTexts default.assets), ("chapters-dir", .text default.chaptersDir),
              ("disable", .ofTexts default.disable), ("manifest", .text default.manifest),
              ("output-dir", .text default.outputDir)],
          schemaSection "links" "Link target rewriting options" "LinksConfig"
            [("equation-targets", .bool default.equationTargets)]]),
      ("$defs", .ofMembers
        [("EquationNumbering", numberingSchema), ("EquationsConfig", equationsSchema),
          ("GlobalConfig", globalSchema), ("LinksConfig", linksSchema)])]

end Config
end CrossRef
