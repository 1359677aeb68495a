import ClickHouseRegression.Text
import ClickHouseRegression.Loop.Retry
import ClickHouseRegression.Cluster.Commands
import ClickHouseRegression.Cluster.Query
import ClickHouseRegression.Cluster.Retry
import ClickHouseRegression.Helpers.Version
import ClickHouseRegression.Calendar.Gregorian
import ClickHouseRegression.Calendar.Week
import ClickHouseRegression.DateTime64.ToWeek
import ClickHouseRegression.Xml.Element
import ClickHouseRegression.Helpers.XmlConfig
import ClickHouseRegression.Map.Ordered
import ClickHouseRegression.Xml.Edit
import ClickHouseRegression.TieredStorage.ChangeConfig
import ClickHouseRegression.TieredStorage.Refinement
import ClickHouseRegression.Cluster.Sessions
import ClickHouseRegression.Bash.Expansion
import ClickHouseRegression.Bash.HereDocument
import ClickHouseRegression.Cluster.SessionInvariant
import ClickHouseRegression.Helpers.HereDoc
import ClickHouseRegression.Sql.Split
import ClickHouseRegression.Helpers.DataTypes
import ClickHouseRegression.Helpers.Tables
import ClickHouseRegression.Helpers.Literals
import ClickHouseRegression.Helpers.InsertTestData
import ClickHouseRegression.Bash.Echo
import ClickHouseRegression.Bash.Lexer
import ClickHouseRegression.Bash.Unquoted
import ClickHouseRegression.Bash.Commands
import ClickHouseRegression.Bash.Quoting
import ClickHouseRegression.Bash.Pipeline
import ClickHouseRegression.Cluster.Branches
import ClickHouseRegression.Cluster.BranchAgreement
import ClickHouseRegression.Cluster.Settings
import ClickHouseRegression.Code.Delimited
import ClickHouseRegression.Helpers.ColumnTypes
import ClickHouseRegression.Helpers.ColumnNames
import ClickHouseRegression.Helpers.ColumnWellFormed
import ClickHouseRegression.Rounding.Nearest
import ClickHouseRegression.Scope.Nesting
import ClickHouseRegression.Steps.SettingScopes
import ClickHouseRegression.Loop.Cleanup
import ClickHouseRegression.Steps.AddConfig
import ClickHouseRegression.Steps.LdapUsers
import ClickHouseRegression.Calendar.Instant
import ClickHouseRegression.DateTime64.RelativeNumbers
import ClickHouseRegression.DateTime64.UnixTimestamp
import ClickHouseRegression.DateTime64.IsoWeek
import ClickHouseRegression.DateTime64.Sweeps
import ClickHouseRegression.DateTime64.StartOfInterval
import ClickHouseRegression.Calendar.Civil
import ClickHouseRegression.DateTime64.DateDiff
import ClickHouseRegression.DateTime64.DateText
import ClickHouseRegression.DateTime64.TimeSlots
import ClickHouseRegression.Calendar.Periods
import ClickHouseRegression.DateTime64.IsoYear
import ClickHouseRegression.DateTime64.StartOfPeriod
import ClickHouseRegression.DateTime64.TypeConversion
import ClickHouseRegression.DateTime64.YearWeek
import ClickHouseRegression.Cluster.ContainerId
import ClickHouseRegression.Cluster.Calls
import ClickHouseRegression.Cluster.Up
import ClickHouseRegression.Cluster.Timeouts
import ClickHouseRegression.Cluster.Down
import ClickHouseRegression.AesEncryption.Hex
import ClickHouseRegression.Cluster.ImageVersion
import ClickHouseRegression.Helpers.RandTexts
import ClickHouseRegression.Helpers.BoundaryTexts
import ClickHouseRegression.Helpers.Cardinality
import ClickHouseRegression.Helpers.DefaultRandom
import ClickHouseRegression.Loop.Indexed
import ClickHouseRegression.TieredStorage.RemovingDisks
import ClickHouseRegression.TieredStorage.AddingDisks
import ClickHouseRegression.Selects.JoinView
import ClickHouseRegression.Text.Lines
import ClickHouseRegression.WindowFunctions.ConvertOutput
import ClickHouseRegression.Text.Decimal
import ClickHouseRegression.Parquet.Conversion
import ClickHouseRegression.Parquet.SqlTypes
import ClickHouseRegression.Parquet.Representation
import ClickHouseRegression.Parquet.Soundness
import ClickHouseRegression.Order.SortBy
import ClickHouseRegression.Keeper.Reports
import ClickHouseRegression.Text.Replace
import ClickHouseRegression.Functional.Suites
import ClickHouseRegression.Helpers.LogWindow
import ClickHouseRegression.Text.Numerals
import ClickHouseRegression.DiskEncryption.MultiVolume
import ClickHouseRegression.Text.Substitute
import ClickHouseRegression.DiskEncryption.Format
import ClickHouseRegression.SslServer.Stash
import ClickHouseRegression.SslServer.NodeCertificate
import ClickHouseRegression.DateTime64.Generator
import ClickHouseRegression.Sql.Table
import ClickHouseRegression.LightweightDelete.AfterDelete
import ClickHouseRegression.Concurrent.Removal
import ClickHouseRegression.LightweightDelete.ConcurrentDelete
import ClickHouseRegression.Concurrent.WorkQueue
import ClickHouseRegression.LightweightDelete.RandomDelete
import ClickHouseRegression.Interactive.Program
import ClickHouseRegression.Cluster.Lifecycle
import ClickHouseRegression.Cluster.LifecycleInvariant
import ClickHouseRegression.Cluster.LifecycleRuns
import ClickHouseRegression.Interactive.Alone
import ClickHouseRegression.Rbac.Privileges
import ClickHouseRegression.Rbac.GrantedPrivileges
import ClickHouseRegression.Rbac.SelectOnTables
