import Classwright.Text.Blank

/-!
# The settings of a new project

The text that a new project starts with.
-/

namespace Classwright

/-- The lines of the settings of a new project. -/
def sampleLines : List String := [
  "# modgen configuration. Relative paths resolve against this file.",
  "",
  "[schema]",
  "# URL or local path of objects_and_components.json.",
  "source = \"https://www.newgrounds.io/help/objects_and_components.json\"",
  "# Holds the downloaded document and its Last-Modified stamp.",
  "cache_dir = \".modgen\"",
  "# Emit a result class for every method, even without a declared return.",
  "permissive_results = true",
  "",
  "[aliases]",
  "js = \"javascript\"",
  "cs = \"csharp\"",
  "as2 = \"actionscript2\"",
  "",
  "[targets.javascript]",
  "index_file = \"js/NewgroundsIO/ObjectIndex.js\"",
  "runtime_module = \"js/NewgroundsIO/runtime.js\"",
  "",
  "[targets.javascript.output_dirs]",
  "objects = \"js/NewgroundsIO/objects\"",
  "components = \"js/NewgroundsIO/components\"",
  "results = \"js/NewgroundsIO/results\"",
  "",
  "[targets.javascript.partial_dirs]",
  "objects = \"partials/js/objects\"",
  "components = \"partials/js/components\"",
  "results = \"partials/js/results\"",
  "",
  "[targets.csharp]",
  "index_file = \"cs/NewgroundsIO/ObjectIndex.cs\"",
  "",
  "[targets.csharp.output_dirs]",
  "objects = \"cs/NewgroundsIO/objects\"",
  "components = \"cs/NewgroundsIO/components\"",
  "results = \"cs/NewgroundsIO/results\"",
  "",
  "[targets.csharp.partial_dirs]",
  "objects = \"partials/cs/objects\"",
  "components = \"partials/cs/components\"",
  "results = \"partials/cs/results\"",
  "",
  "# Renames object classes whose schema name clashes with the target language.",
  "# [targets.csharp.class_names]",
  "# Error = \"NgioError\"",
  "",
  "[targets.actionscript2]",
  "namespace = \"io.newgrounds.models\"",
  "index_file = \"as2/io/newgrounds/models/objects/ObjectIndex.as\"",
  "",
  "[targets.actionscript2.output_dirs]",
  "objects = \"as2/io/newgrounds/models/objects\"",
  "components = \"as2/io/newgrounds/models/components\"",
  "results = \"as2/io/newgrounds/models/results\"",
  "",
  "[targets.actionscript2.partial_dirs]",
  "objects = \"partials/as2/objects\"",
  "components = \"partials/as2/components\"",
  "results = \"partials/as2/results\""]

/-- The settings of a new project. -/
def sampleText : String :=
  Text.unlines sampleLines

end Classwright
