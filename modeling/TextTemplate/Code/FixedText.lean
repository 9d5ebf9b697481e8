/-!
The fixed text of a generated C# program.
-/

namespace TextTemplate.Code

def linesText (lines : List String) : String :=
  String.join (lines.map (· ++ "\n"))

/-- Marks generated members for tools that skip them. -/
def generatedCodeAttribute : String :=
  "[global::System.CodeDom.Compiler.GeneratedCodeAttribute(\"tea-transpiler\", \"0.1.0\")]"

def defaultClassName : String := "GeneratedTextTransformation"

/-- The base class of programs that share the runtime of their host. -/
def runtimeBaseClass : String :=
  "global::Microsoft.VisualStudio.TextTemplating.TextTransformation"

def hostProperty : String :=
  "        public virtual global::Microsoft.VisualStudio.TextTemplating." ++
    "ITextTemplatingEngineHost Host \x7b get; set; \x7d\n"

def returnBuffer : String :=
  "            return this.GenerationEnvironment.ToString();\n"

/-- What stands around an expression to write out its value. -/
def toStringOpening : String := "this.Write(this.ToStringHelper.ToStringWithCulture("

def toStringClosing : String := "));\n"

def initializerOpening : String :=
  linesText
    ["        public virtual void Initialize()",
     "        \x7b",
     "            if (this.Session != null)",
     "            \x7b",
     "                object value;"]

def initializerClosing : String :=
  linesText ["            \x7d", "        \x7d"]

/-- The members of a base class that comes with the program: enough for the transform method
to run. -/
def baseClassBody : String :=
  linesText
  ["    \x7b",
   "        private global::System.Text.StringBuilder generationEnvironmentField;",
   "        private global::System.Collections.Generic.IDictionary<string, object> sessionField;",
   "        private ToStringInstanceHelper toStringHelperField = new ToStringInstanceHelper();",
   "",
   "        protected global::System.Text.StringBuilder GenerationEnvironment",
   "        \x7b",
   "            get",
   "            \x7b",
   "                if (this.generationEnvironmentField == null)",
   "                \x7b",
   "                    this.generationEnvironmentField = new global::System.Text.StringBuilder();",
   "                \x7d",
   "                return this.generationEnvironmentField;",
   "            \x7d",
   "            set \x7b this.generationEnvironmentField = value; \x7d",
   "        \x7d",
   "",
   "        public virtual global::System.Collections.Generic.IDictionary<string, object> Session",
   "        \x7b",
   "            get \x7b return this.sessionField; \x7d",
   "            set \x7b this.sessionField = value; \x7d",
   "        \x7d",
   "",
   "        public ToStringInstanceHelper ToStringHelper",
   "        \x7b",
   "            get \x7b return this.toStringHelperField; \x7d",
   "        \x7d",
   "",
   "        public void Write(string textToAppend)",
   "        \x7b",
   "            if (string.IsNullOrEmpty(textToAppend))",
   "            \x7b",
   "                return;",
   "            \x7d",
   "            this.GenerationEnvironment.Append(textToAppend);",
   "        \x7d",
   "",
   "        public void WriteLine(string textToAppend)",
   "        \x7b",
   "            this.Write(textToAppend);",
   "            this.GenerationEnvironment.AppendLine();",
   "        \x7d",
   "",
   "        public class ToStringInstanceHelper",
   "        \x7b",
   "            private global::System.IFormatProvider formatProviderField = global::System.Globalization.CultureInfo.InvariantCulture;",
   "",
   "            public global::System.IFormatProvider FormatProvider",
   "            \x7b",
   "                get \x7b return this.formatProviderField; \x7d",
   "                set",
   "                \x7b",
   "                    if (value != null)",
   "                    \x7b",
   "                        this.formatProviderField = value;",
   "                    \x7d",
   "                \x7d",
   "            \x7d",
   "",
   "            public string ToStringWithCulture(object objectToConvert)",
   "            \x7b",
   "                if (objectToConvert == null)",
   "                \x7b",
   "                    throw new global::System.ArgumentNullException(\"objectToConvert\");",
   "                \x7d",
   "                global::System.Type t = objectToConvert.GetType();",
   "                global::System.Reflection.MethodInfo method = t.GetMethod(\"ToString\", new global::System.Type[] \x7b typeof(global::System.IFormatProvider) \x7d);",
   "                if (method == null)",
   "                \x7b",
   "                    return objectToConvert.ToString();",
   "                \x7d",
   "                return (string)method.Invoke(objectToConvert, new object[] \x7b this.formatProviderField \x7d);",
   "            \x7d",
   "        \x7d",
   "    \x7d"]

end TextTemplate.Code
